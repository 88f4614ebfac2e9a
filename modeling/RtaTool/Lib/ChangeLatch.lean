import Mathlib.Data.List.Basic

/-!
# A latch on a verdict

A latch holds the last verdict it was given, and reports a verdict that differs from the one it
holds. What it reports over a sequence of verdicts is the sequence of its changes: they alternate,
and the last of them is what the latch holds.

## Main definitions

* `heldVerdict` -- what the latch holds after some verdicts
* `verdictChanges` -- what it has reported

## Main results

* `verdictChanges_concat` -- one more verdict
* `getElem?_verdictChanges` -- the changes alternate
-/

namespace RtaTool

/-- What a latch that held `b` holds after some verdicts. -/
def heldVerdict (b : Bool) (vs : List Bool) : Bool := vs.getLast?.getD b

/-- What a latch that held `b` reports over some verdicts. -/
def verdictChanges : Bool → List Bool → List Bool
  | _, [] => []
  | b, v :: vs => if v = b then verdictChanges b vs else v :: verdictChanges v vs

@[simp] theorem heldVerdict_concat (b v : Bool) (vs : List Bool) :
    heldVerdict b (vs ++ [v]) = v := by
  simp [heldVerdict]

theorem heldVerdict_cons (b v : Bool) (vs : List Bool) :
    heldVerdict b (v :: vs) = heldVerdict v vs := by
  rw [heldVerdict, List.getLast?_cons, Option.getD_some, heldVerdict]

/-- One more verdict is reported exactly when it is not the one held. -/
theorem verdictChanges_concat (b v : Bool) (vs : List Bool) :
    verdictChanges b (vs ++ [v]) =
      verdictChanges b vs ++ if v = heldVerdict b vs then [] else [v] := by
  induction vs generalizing b with
  | nil =>
    rfl
  | cons w vs ih =>
    rw [List.cons_append, verdictChanges, verdictChanges, heldVerdict_cons]
    by_cases h : w = b
    · rw [if_pos h, if_pos h, h]
      exact ih b
    · rw [if_neg h, if_neg h, ih w, List.cons_append]

/-- The changes alternate, and the first of them leaves what was held. -/
theorem getElem?_verdictChanges {b v : Bool} {vs : List Bool} {k : ℕ}
    (h : (verdictChanges b vs)[k]? = some v) : v = (b ^^ decide (k % 2 = 0)) := by
  induction vs generalizing b k with
  | nil =>
    simp [verdictChanges] at h
  | cons w vs ih =>
    rw [verdictChanges] at h
    split_ifs at h with hw
    · exact ih h
    · have hflip : w = !b := Bool.eq_not_of_ne hw
      cases k with
      | zero =>
        rw [List.getElem?_cons_zero, Option.some_inj] at h
        rw [← h, hflip, Nat.zero_mod, decide_eq_true rfl, Bool.xor_true]
      | succ k =>
        rw [List.getElem?_cons_succ] at h
        have hparity : decide ((k + 1) % 2 = 0) = !decide (k % 2 = 0) := by
          rw [← decide_not, decide_eq_decide]
          omega
        rw [ih h, hflip, hparity, Bool.not_xor, Bool.xor_not]

end RtaTool
