import RtaTool.Lib.ShiftRegister
import Mathlib.Analysis.SpecialFunctions.Pow.Real
import Mathlib.Tactic.IntervalCases
import Mathlib.Tactic.NormNum.Prime

/-!

`Mls.h` and `Mls.cpp`. For each order that the constructor takes the register has its full period,
so it goes through every word but zero; the amplitude is in exact arithmetic.


* `Mls.process_period` -- **Headline.** The period, and the words that come in it
* `Mls.autocorrelation` -- **Headline.** The circular autocorrelation is an impulse, but for one
-/

namespace RtaTool

namespace Gen

/-- `tapsFor(order)`. -/
def tapsFor : ℤ → BitVec 32
  | 15 => 0x6000
  | 16 => 0xD008
  | 17 => 0x12000
  | 18 => 0x20400
  | _ => 0

/-- `Mls`. -/
structure Mls where
  order : ℤ
  period : ℕ
  tapMask : BitVec 32
  amplitude : ℝ
  state : BitVec 32

namespace Mls

def kMinOrder : ℤ := 15

def kMaxOrder : ℤ := 18

/-- The constructor. -/
noncomputable def make (order : ℤ) (levelDbFsPeak : ℝ) : Except String Mls :=
  if order < kMinOrder ∨ kMaxOrder < order then .error "Mls order must be in [15, 18]"
  else .ok
    { order
      period := 2 ^ order.toNat - 1
      tapMask := tapsFor order
      amplitude := (10 : ℝ) ^ (levelDbFsPeak / 20)
      state := 1 }

/-- What `nextSample` makes of the register. -/
def turn (tapMask state : BitVec 32) : BitVec 32 :=
  if state.getLsbD 0 then state >>> 1 ^^^ tapMask else state >>> 1

/-- `nextSample()`. -/
def nextSample (mls : Mls) : ℝ × Mls :=
  (if mls.state.getLsbD 0 then mls.amplitude else -mls.amplitude,
    { mls with state := turn mls.tapMask mls.state })

/-- `process(out)`, of a span of that length. -/
def process (mls : Mls) : ℕ → List ℝ × Mls
  | 0 => ([], mls)
  | n + 1 =>
    let (out, mls) := mls.process n
    (out ++ [mls.nextSample.1], mls.nextSample.2)

/-- `restart()`. -/
def restart (mls : Mls) : Mls := { mls with state := 1 }

/-- After so many samples. -/
def after (mls : Mls) (n : ℕ) : Mls := { mls with state := (turn mls.tapMask)^[n] mls.state }

/-- The sample after so many. -/
def sample (mls : Mls) (n : ℕ) : ℝ := (mls.after n).nextSample.1

theorem process_eq (mls : Mls) (n : ℕ) :
    mls.process n = ((List.range n).map mls.sample, mls.after n) := by
  induction n with
  | zero => rfl
  | succ n ih =>
    rw [process, ih, List.range_succ, List.map_append]
    refine Prod.ext rfl ?_
    simp only [nextSample, after, Function.iterate_succ_apply']

theorem sample_eq_sign (mls : Mls) (n : ℕ) : mls.sample n =
    mls.amplitude * (ShiftRegister.sign ((turn mls.tapMask)^[n] mls.state) : ℤ) := by
  rw [sample, nextSample, ShiftRegister.sign, after]
  dsimp only
  split <;> simp

end Mls

open ShiftRegister

theorem linear_turn {n : ℕ} (hn : 0 < n ∧ n ≤ 32) {tapMask : BitVec 32}
    (hmask : tapMask.toNat < 2 ^ n) : Linear n (Mls.turn tapMask) where
  width := hn
  xor x y := by
    rw [Mls.turn, Mls.turn, Mls.turn, BitVec.getLsbD_xor, BitVec.ushiftRight_xor_distrib]
    cases x.getLsbD 0 <;> cases y.getLsbD 0
    · rfl
    · exact BitVec.xor_assoc ..
    · simp only [Bool.xor_false, if_true, Bool.false_eq_true, if_false]
      rw [BitVec.xor_assoc, BitVec.xor_assoc, BitVec.xor_comm tapMask]
    · simp only [Bool.xor_self, if_true, Bool.false_eq_true, if_false]
      rw [BitVec.xor_assoc, BitVec.xor_comm tapMask, BitVec.xor_assoc (y >>> 1),
        BitVec.xor_self, BitVec.xor_zero]
  shift x hx := by rw [Mls.turn, hx, if_neg Bool.false_ne_true]
  fits x hx := by
    have hshift : (x >>> 1).toNat < 2 ^ n := by
      rw [BitVec.toNat_ushiftRight]
      exact (Nat.shiftRight_le _ _).trans_lt hx
    rw [Mls.turn]
    split
    · rw [BitVec.toNat_xor]
      exact Nat.xor_lt_two_pow hshift hmask
    · exact hshift

/-- The register of a mask has its full period, if `2 ^ n - 1` steps lead back and the quotients by
its primes do not. -/
theorem fullPeriod_turn {n : ℕ} {mask : BitVec 32} (primes : List ℕ) (hn : 1 < n ∧ n ≤ 32)
    (hmask : mask.toNat < 2 ^ n) (hprod : primes.prod = 2 ^ n - 1)
    (hprimes : ∀ q ∈ primes, q.Prime)
    (hback : power (Mls.turn mask) n n primes.prod = top 32 n)
    (hearly : ∀ q ∈ primes, power (Mls.turn mask) n n (primes.prod / q) ≠ top 32 n) :
    Linear n (Mls.turn mask) ∧ Function.minimalPeriod (Mls.turn mask) 1 = 2 ^ n - 1 := by
  have hlinear := linear_turn ⟨by omega, hn.2⟩ hmask
  have hpos : 2 ≤ 2 ^ n := Nat.le_self_pow (by omega) 2
  have hperiod := hlinear.minimalPeriod_top hprimes (hprod.trans_lt (by omega)) hback hearly
  rw [hprod] at hperiod
  have htop : (top 32 n).toNat ∈ Finset.Ico 1 (2 ^ n) := by
    refine Finset.mem_Ico.mpr ⟨?_, hlinear.top_fits⟩
    rw [top, BitVec.toNat_twoPow, Nat.mod_eq_of_lt (Nat.pow_lt_pow_right (by decide) (by omega))]
    exact Nat.one_le_two_pow
  exact ⟨hlinear, hlinear.minimalPeriod_eq htop hperiod
    (Finset.mem_Ico.mpr ⟨le_rfl, Nat.one_lt_two_pow (by omega)⟩)⟩

/-- The masks are those of registers of full period. -/
theorem minimalPeriod_turn {order : ℤ} (h : 15 ≤ order ∧ order ≤ 18) :
    Linear order.toNat (Mls.turn (tapsFor order)) ∧
      Function.minimalPeriod (Mls.turn (tapsFor order)) 1 = 2 ^ order.toNat - 1 := by
  obtain ⟨hmin, hmax⟩ := h
  interval_cases order
  · exact fullPeriod_turn [7, 31, 151] (by decide) (by decide) (by decide) (by norm_num)
      (by decide +kernel) (by decide +kernel)
  · exact fullPeriod_turn [3, 5, 17, 257] (by decide) (by decide) (by decide) (by norm_num)
      (by decide +kernel) (by decide +kernel)
  · exact fullPeriod_turn [131071] (by decide) (by decide) (by decide) (by norm_num)
      (by decide +kernel) (by decide +kernel)
  · exact fullPeriod_turn [3, 3, 3, 7, 19, 73] (by decide) (by decide) (by decide) (by norm_num)
      (by decide +kernel) (by decide +kernel)

namespace Mls

variable {order : ℤ} {levelDbFsPeak : ℝ} {mls : Mls} (h : make order levelDbFsPeak = .ok mls)

include h

/-- What a constructed register is. -/
theorem register_of_make : ∃ n, Linear n (turn mls.tapMask) ∧ mls.period = 2 ^ n - 1 ∧
    mls.state.toNat ∈ Finset.Ico 1 (2 ^ n) ∧
    Function.minimalPeriod (turn mls.tapMask) mls.state = 2 ^ n - 1 := by
  rw [make] at h
  split_ifs at h with horder
  obtain rfl := Except.ok.inj h
  obtain ⟨hmin, hmax⟩ := not_or.mp horder
  obtain ⟨hlinear, hperiod⟩ := minimalPeriod_turn ⟨not_lt.mp hmin, not_lt.mp hmax⟩
  refine ⟨order.toNat, hlinear, rfl, Finset.mem_Ico.mpr ⟨le_rfl, ?_⟩, hperiod⟩
  exact Nat.one_lt_two_pow hlinear.width.1.ne'

/-- **Headline.** The register is back after its period and its multiples and no sooner, and by then
has held each word from one to the period, and no other. -/
theorem process_period : (∀ n, (mls.process n).2 = mls ↔ mls.period ∣ n) ∧
    ∀ x, (∃ n, (mls.process n).2.state = x) ↔ 0 < x.toNat ∧ x.toNat ≤ mls.period := by
  obtain ⟨n, hlinear, hn, hstate, hperiod⟩ := register_of_make h
  have hafter : ∀ k, (mls.process k).2 = mls.after k := fun k => by rw [process_eq]
  simp only [hafter]
  refine ⟨fun k => ?_, fun x => ?_⟩
  · rw [hn, ← hperiod, ← Function.isPeriodicPt_iff_minimalPeriod_dvd]
    constructor
    · intro heq
      exact congrArg state heq
    · intro heq
      exact congrArg (fun s => { mls with state := s }) heq
  · have hpos := Nat.two_pow_pos n
    constructor
    · rintro ⟨k, rfl⟩
      have := Finset.mem_Ico.mp (hlinear.iterate_mem hstate hperiod k)
      exact ⟨this.1, by rw [hn]; exact Nat.le_sub_one_of_lt this.2⟩
    · rintro ⟨hlow, hhigh⟩
      exact hlinear.exists_iterate hstate hperiod (Finset.mem_Ico.mpr ⟨hlow, by omega⟩)

omit h in
theorem process_period_default : ∃ mls, make 17 (-6) = .ok mls ∧ (mls.process 131071).2 = mls :=
  ⟨_, if_neg (by decide), ((process_period (if_neg (by decide))).1 131071).mpr (dvd_refl 131071)⟩

/-- **Headline.** Over any period the samples come to one amplitude, and their products with those
`k` later to minus its square, unless `k` is a multiple of the period. -/
theorem autocorrelation (m : ℕ) :
    ∑ i ∈ Finset.range mls.period, mls.sample (m + i) = mls.amplitude ∧
      ∀ k, ∑ i ∈ Finset.range mls.period, mls.sample (m + i) * mls.sample (m + i + k) =
        if mls.period ∣ k then mls.period * mls.amplitude ^ 2 else -mls.amplitude ^ 2 := by
  obtain ⟨n, hlinear, hn, hstate, hperiod⟩ := register_of_make h
  obtain ⟨v, hv⟩ : ∃ v, v = (turn mls.tapMask)^[m] mls.state := ⟨_, rfl⟩
  have hmem : v.toNat ∈ Finset.Ico 1 (2 ^ n) := hv ▸ hlinear.iterate_mem hstate hperiod m
  have hagain := hlinear.minimalPeriod_eq hstate hperiod hmem
  have hsample : ∀ i k, mls.sample (m + i + k) =
      mls.amplitude * (sign ((turn mls.tapMask)^[i] ((turn mls.tapMask)^[k] v)) : ℤ) := by
    intro i k
    rw [sample_eq_sign, hv, ← Function.iterate_add_apply, ← Function.iterate_add_apply,
      show i + k + m = m + i + k by ring]
  have hfirst := fun i => hsample i 0
  simp only [Nat.add_zero, Function.iterate_zero, id_eq] at hfirst
  constructor
  · simp only [hfirst, ← Finset.mul_sum, ← Int.cast_sum]
    rw [hn, hlinear.sum_sign_orbit hmem hagain, Int.cast_one, mul_one]
  · intro k
    simp only [hfirst, hsample, mul_mul_mul_comm, ← Int.cast_mul, ← Finset.mul_sum,
      ← Int.cast_sum, ← sq]
    split_ifs with hdvd
    · have hback : (turn mls.tapMask)^[k] v = v := by
        rw [hn, ← hagain] at hdvd
        exact Function.isPeriodicPt_iff_minimalPeriod_dvd.mpr hdvd
      have hone : ∀ x : BitVec 32, sign x * sign x = 1 := by
        intro x
        rw [sign]
        split <;> rfl
      simp only [hback, hone, Finset.sum_const, Finset.card_range, nsmul_eq_mul, mul_one,
        Int.cast_natCast]
      ring
    · have hne : v ≠ (turn mls.tapMask)^[k] v := by
        intro heq
        rw [hn, ← hagain] at hdvd
        exact hdvd (Function.isPeriodicPt_iff_minimalPeriod_dvd.mp heq.symm)
      rw [hn, hlinear.sum_sign_mul hmem hagain (hlinear.iterate_fits (Finset.mem_Ico.mp hmem).2 k)
        hne]
      push_cast
      ring

omit h in
theorem autocorrelation_default : ∃ mls, make 17 (-6) = .ok mls ∧
    ∑ i ∈ Finset.range mls.period, mls.sample (0 + i) = mls.amplitude :=
  ⟨_, if_neg (by decide), (autocorrelation (if_neg (by decide)) 0).1⟩

end Mls

end Gen

end RtaTool
