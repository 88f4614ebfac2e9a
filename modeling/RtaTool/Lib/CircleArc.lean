import Mathlib.Topology.Instances.AddCircle.Defs

/-!
# Arcs of a circle

An interval of a line is an arc of the circle that the line winds around. On the line from `a` to
`a + p` an arc shorter than the circle is one interval, or, where it passes `a`, the two pieces at
the ends. Which it is can be seen from the order of its ends.

## Main definitions

* `arc` -- the points of the circle under a set of the line

## Main results

* `arc_Icc_of_le` -- an arc that goes all the way round
* `arc_Icc_eq` -- a shorter arc, from its ends brought between `a` and `a + p`
-/

namespace RtaTool

variable {K : Type*} [Field K] {p : K}

/-- The points of the circle of length `p` under a set of the line. -/
def arc (p : K) (s : Set K) : Set (AddCircle p) := (fun x : K => (x : AddCircle p)) '' s

theorem arc_union (s t : Set K) : arc p (s ∪ t) = arc p s ∪ arc p t := Set.image_union _ _ _

theorem coe_add_turns (x : K) (n : ℤ) : ((x + n * p : K) : AddCircle p) = x := by
  rw [← zsmul_eq_mul, AddCircle.coe_add, AddCircle.coe_zsmul, AddCircle.coe_period, smul_zero,
    add_zero]

variable [LinearOrder K] [IsStrictOrderedRing K]

theorem arc_Icc_add_turns (lo hi : K) (n : ℤ) :
    arc p (Set.Icc (lo + n * p) (hi + n * p)) = arc p (Set.Icc lo hi) := by
  rw [arc, ← Set.image_add_const_Icc, Set.image_image]
  exact Set.image_congr fun x _ => coe_add_turns x n

variable [Archimedean K]

/-- An arc that goes all the way round. -/
theorem arc_Icc_of_le (hp : 0 < p) {lo hi : K} (h : p ≤ hi - lo) :
    arc p (Set.Icc lo hi) = Set.univ := by
  haveI : Fact (0 < p) := ⟨hp⟩
  refine Set.eq_univ_of_univ_subset ?_
  rw [← AddCircle.coe_image_Icc_eq p lo]
  exact Set.image_mono (Set.Icc_subset_Icc_right (by linarith))

/-- **An arc shorter than the circle.** It passes `a` exactly when its ends, brought between `a` and
`a + p`, are in the wrong order. -/
theorem arc_Icc_eq (hp : 0 < p) (a : K) {lo hi : K} (hle : lo ≤ hi) (hlt : hi - lo < p) :
    arc p (Set.Icc lo hi) = arc p (if toIocMod hp a hi < toIocMod hp a lo
      then Set.Icc (toIocMod hp a lo) (a + p) ∪ Set.Icc a (toIocMod hp a hi)
      else Set.Icc (toIocMod hp a lo) (toIocMod hp a hi)) := by
  have hlo := toIocMod_add_toIocDiv_zsmul hp a lo
  have hhi := toIocMod_add_toIocDiv_zsmul hp a hi
  obtain ⟨hu, hu'⟩ := toIocMod_mem_Ioc hp a lo
  obtain ⟨hv, hv'⟩ := toIocMod_mem_Ioc hp a hi
  generalize toIocMod hp a lo = u at *
  generalize toIocMod hp a hi = v at *
  generalize toIocDiv hp a lo = m at *
  generalize toIocDiv hp a hi = n at *
  rw [zsmul_eq_mul] at hlo hhi
  subst hlo hhi
  -- The ends are in the same turn, or in two that follow one another.
  have hmn : m ≤ n := by
    by_contra! h
    have : (n : K) + 1 ≤ m := by exact_mod_cast h
    nlinarith
  have hnm : n ≤ m + 1 := by
    by_contra! h
    have hturns : m + 2 ≤ n := by omega
    have : (m : K) + 2 ≤ n := by exact_mod_cast hturns
    nlinarith
  obtain rfl | rfl : n = m ∨ n = m + 1 := by omega
  · rw [if_neg (by linarith), arc_Icc_add_turns]
  · push_cast at hle hlt ⊢
    have hend : v + ((m : K) + 1) * p = v + p + m * p := by ring
    have hpiece : arc p (Set.Icc (a + p) (v + p)) = arc p (Set.Icc a v) := by
      have := arc_Icc_add_turns (p := p) a v 1
      rwa [Int.cast_one, one_mul] at this
    rw [if_pos (by linarith), hend, arc_Icc_add_turns, arc_union, ← hpiece, ← arc_union,
      Set.Icc_union_Icc_eq_Icc hu' (by linarith)]

end RtaTool
