import RtaTool.Eq.EqInput

/-!
# One filter's response

`BiquadDesign.cpp`: the coefficients of a peaking filter and of the two shelves, and the response of
the section in decibels at one frequency, through `BiquadCascade::attenuationDb`.

## Main definitions

* `realMath` -- the real functions
* `designBiquad`, `attenuationDb`, `responseDb`

## Main results

* `responseDb_isSome_iff` -- a response is refused for the specification, never for the frequency
-/

namespace RtaTool

namespace AutoEq

/-- The real functions. A clamp with its bounds the wrong way round compares with the lower one
first. -/
noncomputable def realMath : MathFns ℝ where
  pi := Real.pi
  sin := Real.sin
  cos := Real.cos
  asin := Real.arcsin
  sqrt := Real.sqrt
  pow10 x := 10 ^ x
  log10 := Real.logb 10
  clampMisused v lo hi := some (if v < lo then lo else if hi < v then hi else v)

variable {K : Type*} [Field K] [LinearOrder K]

/-- `Biquad::Coeffs`. -/
structure BiquadCoeffs (K : Type*) where
  b0 : K
  b1 : K
  b2 : K
  a1 : K
  a2 : K

variable (math : MathFns K)

/-! ### The cookbook -/

/-- `(A + 1/A) * (1/q - 1) + 2`. -/
def shelfRadicand (q a : K) : K := (a + 1 / a) * (1 / q - 1) + 2

/-- `validate` of `BiquadDesign.cpp` throws unless this holds. -/
def FilterSpec.Designable (spec : FilterSpec K) (sampleRate : K) : Prop :=
  0 < sampleRate ∧ 0 < spec.fcHz ∧ spec.fcHz < sampleRate / 2 ∧ 0 < spec.q ∧
    (spec.type ≠ .peaking → 0 < shelfRadicand spec.q (math.pow10 (spec.gainDb / 40)))

instance (spec : FilterSpec K) (sampleRate : K) : Decidable (spec.Designable math sampleRate) :=
  inferInstanceAs (Decidable (_ ∧ _))

/-- `normalize`. -/
def normalize (b0 b1 b2 a0 a1 a2 : K) : BiquadCoeffs K :=
  { b0 := b0 / a0, b1 := b1 / a0, b2 := b2 / a0, a1 := a1 / a0, a2 := a2 / a0 }

/-- `designPeaking`. -/
def designPeaking (w0 q gainDb : K) : BiquadCoeffs K :=
  let a := math.pow10 (gainDb / 40)
  let alpha := math.sin w0 / (2 * q)
  let cw := math.cos w0
  normalize (1 + alpha * a) (-2 * cw) (1 - alpha * a) (1 + alpha / a) (-2 * cw) (1 - alpha / a)

/-- `shelfAlpha`. -/
def shelfAlpha (w0 q a : K) : K := math.sin w0 / 2 * math.sqrt (shelfRadicand q a)

/-- `designLowShelf`. -/
def designLowShelf (w0 q gainDb : K) : BiquadCoeffs K :=
  let a := math.pow10 (gainDb / 40)
  let cw := math.cos w0
  let sqrtA := math.sqrt a
  let alpha := shelfAlpha math w0 q a
  normalize (a * ((a + 1) - (a - 1) * cw + 2 * sqrtA * alpha)) (2 * a * ((a - 1) - (a + 1) * cw))
    (a * ((a + 1) - (a - 1) * cw - 2 * sqrtA * alpha)) ((a + 1) + (a - 1) * cw + 2 * sqrtA * alpha)
    (-2 * ((a - 1) + (a + 1) * cw)) ((a + 1) + (a - 1) * cw - 2 * sqrtA * alpha)

/-- `designHighShelf`. -/
def designHighShelf (w0 q gainDb : K) : BiquadCoeffs K :=
  let a := math.pow10 (gainDb / 40)
  let cw := math.cos w0
  let sqrtA := math.sqrt a
  let alpha := shelfAlpha math w0 q a
  normalize (a * ((a + 1) + (a - 1) * cw + 2 * sqrtA * alpha)) (-2 * a * ((a - 1) + (a + 1) * cw))
    (a * ((a + 1) + (a - 1) * cw - 2 * sqrtA * alpha)) ((a + 1) - (a - 1) * cw + 2 * sqrtA * alpha)
    (2 * ((a - 1) - (a + 1) * cw)) ((a + 1) - (a - 1) * cw - 2 * sqrtA * alpha)

/-- `designBiquad`. `none` is `std::invalid_argument`. -/
def designBiquad (spec : FilterSpec K) (sampleRate : K) : Option (BiquadCoeffs K) :=
  if spec.Designable math sampleRate then
    let w0 := 2 * math.pi * spec.fcHz / sampleRate
    some
      (match spec.type with
      | .peaking => designPeaking math w0 spec.q spec.gainDb
      | .lowShelf => designLowShelf math w0 spec.q spec.gainDb
      | .highShelf => designHighShelf math w0 spec.q spec.gainDb)
  else none

/-! ### The response -/

/-- `sectionAttenuationDb`. -/
def sectionAttenuationDb (c : BiquadCoeffs K) (w : K) : K :=
  let cw := math.cos w
  let sw := math.sin w
  let c2w := math.cos (2 * w)
  let s2w := math.sin (2 * w)
  let nRe := c.b0 + c.b1 * cw + c.b2 * c2w
  let nIm := -(c.b1 * sw + c.b2 * s2w)
  let dRe := 1 + c.a1 * cw + c.a2 * c2w
  let dIm := -(c.a1 * sw + c.a2 * s2w)
  let nMagSq := nRe * nRe + nIm * nIm
  let dMagSq := dRe * dRe + dIm * dIm
  10 * math.log10 dMagSq - 10 * math.log10 nMagSq

/-- `BiquadCascade::attenuationDb`. -/
def attenuationDb (sections : List (BiquadCoeffs K)) (w : K) : K :=
  sections.foldl (fun total c => total + sectionAttenuationDb math c w) 0

/-- `responseDb`. `none` is `std::invalid_argument`. -/
def responseDb (spec : FilterSpec K) (sampleRate hz : K) : Option K :=
  (designBiquad math spec sampleRate).map fun c =>
    -attenuationDb math [c] (2 * math.pi * hz / sampleRate)

variable {math}

theorem responseDb_isSome_iff {spec : FilterSpec K} {sampleRate hz : K} :
    (responseDb math spec sampleRate hz).isSome ↔ spec.Designable math sampleRate := by
  rw [responseDb, Option.isSome_map, designBiquad]
  split_ifs with h <;> simp [h]

end AutoEq

end RtaTool
