import RtaTool.Lib.Numerals
import Mathlib.Dynamics.PeriodicPts.Lemmas
import Mathlib.Data.Set.Card
import Mathlib.Algebra.Ring.GeomSum
import Mathlib.Tactic.LinearCombination
import Mathlib.Tactic.Ring

/-!
# Affine maps that go through everything

A map of a finite type whose least period at a point is the number of its values goes through each
value once. In a ring where `2 ^ (n + 1)` is zero and `2 ^ n` is not, `x ↦ a * x + c` has the period
`2 ^ (n + 1)` at every point when `a` is one more than a multiple of four and `c` is odd.

## Main results

* `AffineCycle.minimalPeriod_affine` -- the period
* `AffineCycle.card_filter_orbit` -- how often a property holds along the orbit
-/

namespace RtaTool

namespace AffineCycle

section Ring

variable {R : Type*} [CommRing R] {a c : R}

theorem iterate_affine_sub (n : ℕ) (x y : R) :
    (fun x => a * x + c)^[n] y - (fun x => a * x + c)^[n] x = a ^ n * (y - x) := by
  induction n with
  | zero => simp
  | succ n ih =>
    rw [Function.iterate_succ_apply', Function.iterate_succ_apply', pow_succ]
    linear_combination a * ih

/-- `2 ^ j` steps add `2 ^ j`, but for twice as much. -/
theorem iterate_affine_two_pow (ha : ∃ t, a = 1 + 4 * t) (hc : ∃ s, c = 1 + 2 * s) (j : ℕ) (x : R) :
    ∃ m, (fun x => a * x + c)^[2 ^ j] x = x + 2 ^ j * (1 + 2 * m) := by
  obtain ⟨t, rfl⟩ := ha
  induction j generalizing x with
  | zero =>
    obtain ⟨s, rfl⟩ := hc
    exact ⟨2 * t * x + s, by rw [pow_zero, Function.iterate_one]; ring⟩
  | succ j ih =>
    obtain ⟨m, hm⟩ := ih x
    have hdvd := sub_dvd_pow_sub_pow (1 + 4 * t) 1 (2 ^ j)
    rw [one_pow, add_sub_cancel_left] at hdvd
    obtain ⟨u, hu⟩ := (Dvd.intro t rfl).trans hdvd
    have hstep := iterate_affine_sub (a := 1 + 4 * t) (c := c) (2 ^ j) x
      ((fun x => (1 + 4 * t) * x + c)^[2 ^ j] x)
    refine ⟨m + u + 2 * m * u, ?_⟩
    rw [pow_succ, mul_two, Function.iterate_add_apply]
    rw [hm] at hstep ⊢
    linear_combination hstep + 2 ^ j * (1 + 2 * m) * hu

theorem minimalPeriod_affine {n : ℕ} (hzero : (2 : R) ^ (n + 1) = 0) (hne : (2 : R) ^ n ≠ 0)
    (ha : ∃ t, a = 1 + 4 * t) (hc : ∃ s, c = 1 + 2 * s) (x : R) :
    Function.minimalPeriod (fun x => a * x + c) x = 2 ^ (n + 1) := by
  have : Fact (Nat.Prime 2) := ⟨Nat.prime_two⟩
  apply Function.minimalPeriod_eq_prime_pow
  · intro hperiod
    obtain ⟨m, hm⟩ := iterate_affine_two_pow ha hc n x
    have hback := hm.symm.trans hperiod
    exact hne (by linear_combination hback - m * hzero)
  · obtain ⟨m, hm⟩ := iterate_affine_two_pow ha hc (n + 1) x
    rw [hzero, zero_mul, add_zero] at hm
    exact hm

end Ring

/-! ### Once through everything -/

section Orbit

variable {α : Type*} [Finite α] {f : α → α} {x : α} {n : ℕ}

theorem image_orbit (hperiod : Function.minimalPeriod f x = n) (hcard : Nat.card α = n) :
    (fun k => f^[k] x) '' (Finset.range n : Set ℕ) = Set.univ := by
  have hinj : (Finset.range n : Set ℕ).InjOn fun k => f^[k] x := by
    rw [Finset.coe_range, ← hperiod]
    exact Function.iterate_injOn_Iio_minimalPeriod
  apply Set.eq_of_subset_of_ncard_le (Set.subset_univ _)
  rw [hinj.ncard_image, Set.ncard_coe_finset, Finset.card_range, Set.ncard_univ,
    hcard]

/-- Along one period a property holds as often as it holds at all. -/
theorem card_filter_orbit (hperiod : Function.minimalPeriod f x = n) (hcard : Nat.card α = n)
    (P : α → Prop) [DecidablePred P] :
    ((Finset.range n).filter fun k => P (f^[k] x)).card = {y | P y}.ncard := by
  have hinj : Set.InjOn (fun k => f^[k] x) ((Finset.range n).filter fun k => P (f^[k] x)) := by
    intro i hi j hj heq
    rw [Finset.mem_coe, Finset.mem_filter, Finset.mem_range, ← hperiod] at hi hj
    exact Function.iterate_injOn_Iio_minimalPeriod hi.1 hj.1 heq
  rw [← Set.ncard_coe_finset, ← hinj.ncard_image]
  congr 1
  ext y
  constructor
  · rintro ⟨k, hk, rfl⟩
    exact (Finset.mem_filter.mp hk).2
  · intro hy
    obtain ⟨k, hk, rfl⟩ := (image_orbit hperiod hcard).ge (Set.mem_univ y)
    exact ⟨k, Finset.mem_filter.mpr ⟨hk, hy⟩, rfl⟩

end Orbit

end AffineCycle

end RtaTool
