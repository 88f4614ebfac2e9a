import Mathlib.Data.List.Perm.Basic
import Mathlib.Order.Bounds.Basic

/-!
# Taking out the first of the smallest

A scan over what is not used yet for the first with the smallest key, and what stays unused.

## Main definitions

* `takeSmallest`

## Main results

* `takeSmallest_of_ne_nil` -- what is taken has the smallest key, and nothing is lost
-/

namespace RtaTool

variable {α K : Type*} [LinearOrder K]

/-- The first of those with the smallest key, and the others. -/
def takeSmallest (key : α → K) : List α → Option (α × List α)
  | [] => none
  | a :: l =>
    match takeSmallest key l with
    | none => some (a, l)
    | some (best, rest) => if key best < key a then some (best, a :: rest) else some (a, l)

/-- From a list that is not empty one with the smallest key is taken, and nothing is lost. -/
theorem takeSmallest_of_ne_nil (key : α → K) {l : List α} (hl : l ≠ []) :
    ∃ best rest, takeSmallest key l = some (best, rest) ∧ l.Perm (best :: rest) ∧
      ∀ a ∈ l, key best ≤ key a := by
  induction l with
  | nil => exact absurd rfl hl
  | cons a l ih =>
    obtain rfl | hne := eq_or_ne l []
    · refine ⟨a, [], rfl, .refl _, fun b hb => ?_⟩
      rw [List.mem_singleton.mp hb]
    · obtain ⟨best, rest, htake, hperm, hmin⟩ := ih hne
      rw [takeSmallest, htake]
      dsimp only
      split_ifs with hlt
      · refine ⟨best, a :: rest, rfl, (hperm.cons a).trans (.swap _ _ _), fun b hb => ?_⟩
        obtain rfl | hb := List.mem_cons.mp hb
        · exact hlt.le
        · exact hmin b hb
      · refine ⟨a, l, rfl, .refl _, fun b hb => ?_⟩
        obtain rfl | hb := List.mem_cons.mp hb
        · exact le_rfl
        · exact (not_lt.mp hlt).trans (hmin b hb)

end RtaTool
