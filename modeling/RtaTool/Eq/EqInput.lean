import RtaTool.Lib.Numerals
import Mathlib

/-!
# The equaliser's vocabulary

What the automatic equaliser's core passes around: filter specifications, and the one record,
`EqInput`, that holds the whole problem. Doubles and floats are elements of a field, so arithmetic is
exact; the functions of `<cmath>` are the fields of `MathFns`.

`std::clamp` has no meaning when its lower bound is above its upper one. What a library does then is
one more field of `MathFns`: it may return anything, or not return at all.

## Main definitions

* `MathFns`, `Outcome` -- the mathematical functions of the standard library, and how a call ends
* `FilterType`, `FilterSpec`, `EqInput`
* `stdClamp` -- `std::clamp`
* `EqInput.Valid` -- what `validate` of `EqAllocator.cpp` asks for

## Main results

* `stdClamp_mem` -- a clamp whose bounds are in order gives a value between them
-/

namespace RtaTool

/-- `eq::FilterType`. -/
inductive FilterType
  | peaking
  | lowShelf
  | highShelf
  deriving DecidableEq, Repr

namespace AutoEq

/-! ### The standard library's mathematics -/

/-- The functions of `<cmath>`, and `std::clamp` outside its contract. -/
structure MathFns (K : Type*) where
  pi : K
  sin : K → K
  cos : K → K
  asin : K → K
  sqrt : K → K
  /-- `std::pow(10.0, x)`. -/
  pow10 : K → K
  log10 : K → K
  /-- `std::clamp(v, lo, hi)` with `hi < lo`; `none` if it does not return. -/
  clampMisused : K → K → K → Option K

/-- How a call ends: with a value, with `std::invalid_argument`, or not at all. -/
inductive Outcome (α : Type*)
  | returned (a : α)
  | threw
  | aborted

variable {K : Type*}

section Clamp

variable [LinearOrder K] (math : MathFns K)

/-- `std::clamp(v, lo, hi)`. -/
def stdClamp (v lo hi : K) : Option K :=
  if hi < lo then math.clampMisused v lo hi
  else some (if v < lo then lo else if hi < v then hi else v)

theorem stdClamp_mem {v lo hi : K} (h : lo ≤ hi) :
    ∃ q, stdClamp math v lo hi = some q ∧ lo ≤ q ∧ q ≤ hi := by
  rw [stdClamp, if_neg h.not_gt]
  refine ⟨_, rfl, ?_⟩
  split_ifs with hlow hhigh
  · exact ⟨le_refl lo, h⟩
  · exact ⟨h, le_refl hi⟩
  · exact ⟨le_of_not_gt hlow, le_of_not_gt hhigh⟩

end Clamp

/-! ### Filters and the problem -/

/-- `eq::FilterSpec`. -/
structure FilterSpec (K : Type*) where
  type : FilterType
  fcHz : K
  q : K
  gainDb : K
  deriving DecidableEq

/-- `eq::EqInput`. A flag is read only as zero or not. -/
structure EqInput (K : Type*) where
  hz : List K
  residualDb : List K
  coherence : List K
  trusted : List Bool
  excluded : List Bool
  sampleRate : K
  maxFilters : ℤ
  gCapDb : K
  qMaxBoost : K
  qMaxCut : K
  roomT60Sec : Option K
  /-- Real and imaginary parts. -/
  hHalfGrid : List (K × K)

namespace EqInput

variable [Field K] [LinearOrder K]

/-- `validate` throws unless this holds. -/
structure Valid (input : EqInput K) : Prop where
  residualDb : input.residualDb.length = input.hz.length
  coherence : input.coherence.length = input.hz.length
  trusted : input.trusted.length = input.hz.length
  excluded : input.excluded.length = input.hz.length
  sampleRate : 0 < input.sampleRate

instance (input : EqInput K) : Decidable input.Valid :=
  decidable_of_iff
    (input.residualDb.length = input.hz.length ∧ input.coherence.length = input.hz.length ∧
      input.trusted.length = input.hz.length ∧ input.excluded.length = input.hz.length ∧
      0 < input.sampleRate)
    ⟨fun h => ⟨h.1, h.2.1, h.2.2.1, h.2.2.2.1, h.2.2.2.2⟩, fun h => ⟨h.1, h.2, h.3, h.4, h.5⟩⟩

/-- `trusted[k] && !excluded[k]`. -/
def InPlay (input : EqInput K) (k : ℕ) : Prop :=
  input.trusted.getD k false = true ∧ input.excluded.getD k true = false

instance (input : EqInput K) (k : ℕ) : Decidable (input.InPlay k) :=
  inferInstanceAs (Decidable (_ ∧ _))

/-- `coherence[k] / hz[k]` where the bin is trusted, not excluded and above DC, else zero. -/
def weight (input : EqInput K) (k : ℕ) : K :=
  if input.InPlay k ∧ 0 < input.hz.getD k 0 then input.coherence.getD k 0 / input.hz.getD k 0
  else 0

end EqInput

end AutoEq

end RtaTool
