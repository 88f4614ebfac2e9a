import Mathlib.Data.Rat.Floor

/-!
# From arrivals to a cycle

`CycleArrival.h`: when an integer read off two impulse responses may choose among the fit's delay
candidates, and when it may only be a hint.

`seedAgreesWithCrossing` compares `|log2 (seed / crossing)|` with a third of an octave. Over the
rationals that is a comparison of cubes, which is how it is written here; the logarithm is
monotone, so the two say the same.

## Main definitions

* `llround` -- `std::llround`, ties away from zero
* `seedAgreesWithCrossing`, `candidateWithinGuard`
-/

namespace RtaTool

/-- `std::llround`: to the nearest integer, ties away from zero. -/
def llround (x : ℚ) : ℤ := if 0 ≤ x then ⌊x + 1 / 2⌋ else -⌊-x + 1 / 2⌋

/-- `seedAgreesWithCrossing`: within `kSeedCrossingToleranceOctaves = 1/3` octave of each other, or
nothing to compare. -/
def seedAgreesWithCrossing (seedHz crossingHz : ℚ) : Bool :=
  if ¬ 0 < seedHz ∨ ¬ 0 < crossingHz then true
  else decide (seedHz ^ 3 ≤ 2 * crossingHz ^ 3 ∧ crossingHz ^ 3 ≤ 2 * seedHz ^ 3)

/-- The candidate nearest the target; the earlier one wins a tie. -/
def nearestCandidate (target : ℚ) (front : ℚ) (candidates : List ℚ) : ℚ :=
  candidates.foldl (fun best c => if |c - target| < |best - target| then c else best) front

/-- The smallest gap between neighbours of a sorted list, starting from `acc`. -/
def smallestGap (acc : ℚ) : List ℚ → ℚ
  | x :: y :: rest => smallestGap (min acc (y - x)) (y :: rest)
  | _ => acc

/-- `candidateWithinGuard(candidatesSeconds, targetSeconds, searchRangeSeconds)`: the nearest
candidate, only when it is within a quarter of the candidate spacing. -/
def candidateWithinGuard (candidatesSeconds : List ℚ) (targetSeconds searchRangeSeconds : ℚ) :
    Option ℚ :=
  match candidatesSeconds with
  | [] => none
  | [only] =>
    -- one maximum in `[-R, R]`: its neighbours lie outside, so the spacing is over `R + |c|`
    if ¬ 0 < searchRangeSeconds then none
    else if |only - targetSeconds| ≤ (searchRangeSeconds + |only|) / 4 then some only else none
  | front :: rest =>
    let best := nearestCandidate targetSeconds front (front :: rest)
    match (front :: rest).mergeSort (· ≤ ·) with
    | x :: y :: sorted =>
      let spacing := smallestGap (y - x) (y :: sorted)
      if ¬ 0 < spacing then some best
      else if |best - targetSeconds| ≤ spacing / 4 then some best else none
    | _ => none

end RtaTool
