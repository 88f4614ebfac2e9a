import RtaTool.Eq.EqInput

/-!
# The verdict on a dip

`DipClassifier.cpp`, with the part of `ExcessPhase.cpp` that decides whether there is a curve at all.
A dip whose excess phase swings more than its depth allows is not minimum phase, and a boost would
not fill it.

The reconstruction of the excess phase (a cepstrum over an oversampled grid) is a parameter, a value
for each bin: nothing here depends on which value. What the source asks of the grid before it starts
is kept, and so is the refusal to give a curve for fewer than two trusted bins.

## Main definitions

* `ExcessPhaseResult`, `excessPhase`
* `DipVerdict`, `DipClassification`, `classifyDip`

## Main results

* `excessPhase_isSome_iff` -- when the excess phase is not refused
* `classifyDip_isSome` -- a dip inside the grid is always classified
-/

namespace RtaTool

namespace AutoEq

variable {K : Type*}

/-! ### Excess phase -/

/-- What the classifier reads of `dsp::ExcessPhaseResult`. -/
structure ExcessPhaseResult (K : Type*) where
  excessPhaseRad : List K
  valid : Bool

/-- The excess phase of each bin, of the magnitudes, the half grid, the trusted bins and the sample
rate. -/
abbrev ExcessCurve (K : Type*) := List K → List (K × K) → List Bool → K → ℕ → K

/-- `isPowerOfTwo`. -/
def IsPowerOfTwo (n : ℕ) : Prop := n ≠ 0 ∧ n &&& (n - 1) = 0

instance (n : ℕ) : Decidable (IsPowerOfTwo n) := inferInstanceAs (Decidable (_ ∧ _))

/-- `kMinTrustedBins`. -/
def kMinTrustedBins : ℕ := 2

/-- `magnitudeHalfGrid.size() must be 2^k + 1, k >= 1`. -/
def IsHalfGridSize (m : ℕ) : Prop := 3 ≤ m ∧ IsPowerOfTwo (m - 1)

instance (m : ℕ) : Decidable (IsHalfGridSize m) := inferInstanceAs (Decidable (_ ∧ _))

section ExcessPhase

variable [Field K] [LinearOrder K] (curve : ExcessCurve K)

/-- `dsp::excessPhase` at its own oversampling factor. `none` is `std::invalid_argument`. -/
def excessPhase (magnitude : List K) (hHalfGrid : List (K × K)) (trusted : List Bool)
    (sampleRate : K) : Option (ExcessPhaseResult K) :=
  if magnitude.length ≠ hHalfGrid.length ∨ magnitude.length ≠ trusted.length then none
  else if ¬ IsHalfGridSize magnitude.length then none
  else if sampleRate ≤ 0 then none
  else if trusted.count true < kMinTrustedBins then some { excessPhaseRad := [], valid := false }
  else
    some
      { excessPhaseRad :=
          (List.range magnitude.length).map (curve magnitude hHalfGrid trusted sampleRate)
        valid := true }

variable {hHalfGrid : List (K × K)} {trusted : List Bool} {magnitude : List K} {sampleRate : K}

theorem excessPhase_isSome_iff (hmagnitude : magnitude.length = hHalfGrid.length)
    (htrusted : magnitude.length = trusted.length) (hrate : 0 < sampleRate) :
    (excessPhase curve magnitude hHalfGrid trusted sampleRate).isSome ↔
      IsHalfGridSize magnitude.length := by
  rw [excessPhase, if_neg (by simp [hmagnitude.symm, htrusted.symm]), if_neg (c := sampleRate ≤ 0)
    hrate.not_ge]
  by_cases hsize : IsHalfGridSize magnitude.length
  · rw [if_neg (not_not_intro hsize)]
    split_ifs <;> simp [hsize]
  · simp [hsize]

theorem length_of_excessPhase {xp : ExcessPhaseResult K}
    (h : excessPhase curve magnitude hHalfGrid trusted sampleRate = some xp) (hvalid : xp.valid) :
    xp.excessPhaseRad.length = magnitude.length := by
  rw [excessPhase] at h
  split_ifs at h
  · rw [Option.some.injEq] at h
    subst h
    simp at hvalid
  · rw [Option.some.injEq] at h
    subst h
    simp

end ExcessPhase

/-! ### The classifier -/

/-- `DipVerdict`. -/
inductive DipVerdict
  | boostable
  | notMinimumPhase
  | untrusted
  deriving DecidableEq, Repr

/-- `DipClassification`. -/
structure DipClassification (K : Type*) where
  verdict : DipVerdict
  depthDb : K
  swingRad : K
  thresholdRad : K
  deriving DecidableEq

section Classify

variable [Field K] [LinearOrder K] (math : MathFns K)

/-- `reflectionCoefficient`. -/
def reflectionCoefficient (depthDb : K) : K :=
  let ratio := math.pow10 (max depthDb 0 / 20)
  (ratio - 1) / (ratio + 1)

/-- `swingMax - swingMin` over `[fL, fR]`. -/
def swing (phase : List K) (fL fR : ℕ) : K :=
  let bins := (List.range' fL (fR + 1 - fL)).map fun k => phase.getD k 0
  bins.foldl max (phase.getD fL 0) - bins.foldl min (phase.getD fL 0)

/-- `classifyDip`. `none` is `std::invalid_argument`. -/
def classifyDip (xp : ExcessPhaseResult K) (hz : List K) (fL fStar fR : ℕ) (residualDb : List K) :
    Option (DipClassification K) :=
  if hz.length ≠ residualDb.length then none
  else if ¬ (fL ≤ fStar ∧ fStar ≤ fR) ∨ hz.length ≤ fR then none
  else if ¬ xp.valid then
    some { verdict := .untrusted, depthDb := 0, swingRad := 0, thresholdRad := 0 }
  else if xp.excessPhaseRad.length ≠ hz.length then none
  else
    let depthDb := min (residualDb.getD fL 0) (residualDb.getD fR 0) - residualDb.getD fStar 0
    let swingRad := swing xp.excessPhaseRad fL fR
    let r := reflectionCoefficient math depthDb
    let thresholdRad := 2 * math.asin (max 0 (min r 1))
    some
      { verdict := if swingRad < thresholdRad then .boostable else .notMinimumPhase
        depthDb, swingRad, thresholdRad }

theorem classifyDip_isSome {xp : ExcessPhaseResult K} {hz : List K} {fL fStar fR : ℕ}
    {residualDb : List K} (hresidual : hz.length = residualDb.length) (hleft : fL ≤ fStar)
    (hright : fStar ≤ fR) (hend : fR < hz.length)
    (hphase : xp.valid → xp.excessPhaseRad.length = hz.length) :
    (classifyDip math xp hz fL fStar fR residualDb).isSome := by
  rw [classifyDip, if_neg (not_not_intro hresidual), if_neg (by simp [hleft, hright, hend])]
  by_cases hvalid : xp.valid
  · rw [if_neg (not_not_intro hvalid), if_neg (not_not_intro (hphase hvalid))]
    rfl
  · rw [if_pos hvalid]
    rfl

end Classify

end AutoEq

end RtaTool
