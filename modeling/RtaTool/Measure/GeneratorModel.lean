import RtaTool.Platform.OutputEngine
import Mathlib.Data.List.Destutter
import Mathlib.Data.List.Sort

/-!
# What the generator plays

`GeneratorModel.h` is the generator's vocabulary: which signal, how loud, on which outputs, and the
one place where a request becomes a source. The level is clamped inside `makeSource`, so no caller
can build a louder source by forgetting to.

A request carries `double`s, and a `double` may be NaN. Two spots of the code see it: the level
clamp reads it as the floor, and the C++ `!=` that decides whether the source changed is true of a
NaN against anything. So numbers are a type of their own here, with these comparisons.

## Main definitions

* `Double` -- a `double` as the generator compares them
* `GeneratorSettings`, `GeneratorVoice` -- a request, and the source built for it
* `clampGeneratorLevelDb`, `makeSource`, `pruneOutputs` -- the model's functions
* `sourceChanged` -- the comparison `apply` makes between two requests

## Main results

* `makeSource_of_not_sourceChanged` -- requests that compare equal have the same source
-/

namespace RtaTool

/-! ### Numbers -/

/-- A `double`: a number, one of the infinities, or NaN. -/
inductive Double
  | nan
  | negInf
  | num (x : ℚ)
  | posInf
  deriving DecidableEq, Repr

namespace Double

/-- `x < y`, false as soon as one side is NaN. -/
def lt : Double → Double → Bool
  | .num x, .num y => decide (x < y)
  | .negInf, .num _ | .negInf, .posInf | .num _, .posInf => true
  | _, _ => false

/-- `x != y`, true as soon as one side is NaN. -/
def ne (x y : Double) : Bool := x == .nan || y == .nan || x != y

theorem eq_of_ne_eq_false {x y : Double} (h : ne x y = false) : x = y := by
  simp only [ne, Bool.or_eq_false_iff, bne_eq_false_iff_eq] at h
  exact h.2

/-- `std::clamp(v, lo, hi)`. -/
def clamp (v lo hi : Double) : Double := if lt v lo then lo else if lt hi v then hi else v

/-- `std::max(x, y)`. -/
def max (x y : Double) : Double := if lt x y then y else x

end Double

/-! ### Settings -/

/-- `GeneratorSignal`. -/
inductive GeneratorSignal
  | pink
  | white
  | sine
  deriving DecidableEq, Repr

/-- `kGeneratorDefaultLevelDb`. -/
def kGeneratorDefaultLevelDb : Double := .num (-30)

/-- `kGeneratorFloorDb`. -/
def kGeneratorFloorDb : Double := .num (-60)

/-- `kGeneratorCeilingDb`. -/
def kGeneratorCeilingDb : Double := .num (-12)

/-- `kGeneratorDefaultFrequencyHz`. -/
def kGeneratorDefaultFrequencyHz : Double := .num 1000

/-- `kGeneratorNoiseSeed`: the same noise on every press. -/
def kGeneratorNoiseSeed : ℕ := 0x47454E

/-- `GeneratorSettings`, with the defaults of its fields. -/
structure GeneratorSettings where
  signal : GeneratorSignal := .pink
  levelDb : Double := kGeneratorDefaultLevelDb
  frequencyHz : Double := kGeneratorDefaultFrequencyHz
  outputs : List ℤ := [0]
  deriving DecidableEq, Repr

/-- `clampGeneratorLevelDb(db)`: a request that carries no number reads as the quietest one. -/
def clampGeneratorLevelDb (db : Double) : Double :=
  if db = .nan then kGeneratorFloorDb else db.clamp kGeneratorFloorDb kGeneratorCeilingDb

/-- The alternatives of `SourceVariant` that the generator builds, by the arguments of their
constructors. The noises share the generator `Pcg32(seed, 1)`. -/
inductive GeneratorVoice
  | pinkNoise (seed : ℕ) (levelDb : Double)
  | whiteNoise (seed : ℕ) (levelDb : Double)
  | oscillator (sampleRate : ℚ) (hz levelDb : Double)
  deriving DecidableEq, Repr

/-- `makeSource(settings, sampleRate, seed)`. The tone stays below Nyquist whatever was asked. -/
def makeSource (settings : GeneratorSettings) (sampleRate : ℚ) (seed : ℕ) : GeneratorVoice :=
  let level := clampGeneratorLevelDb settings.levelDb
  match settings.signal with
  | .white => .whiteNoise seed level
  | .sine =>
    .oscillator sampleRate
      (settings.frequencyHz.clamp (.num 1) ((Double.num 1).max (.num (45 / 100 * sampleRate)))) level
  | .pink => .pinkNoise seed level

/-- `apply`'s `sourceChanged`: a frequency matters only to the sine. -/
def sourceChanged (settings next : GeneratorSettings) : Bool :=
  (next.signal != settings.signal) || next.levelDb.ne settings.levelDb ||
    (next.signal == .sine && next.frequencyHz.ne settings.frequencyHz)

/-- Settings that `apply` finds equal ask for the same source. A frequency may differ all the same,
where no sine is asked for and `makeSource` does not look at it. -/
theorem makeSource_of_not_sourceChanged {settings next : GeneratorSettings}
    (h : sourceChanged settings next = false) (sampleRate : ℚ) (seed : ℕ) :
    makeSource next sampleRate seed = makeSource settings sampleRate seed := by
  obtain ⟨signal, level, hz, outputs⟩ := next
  simp only [sourceChanged, Bool.or_eq_false_iff, bne_eq_false_iff_eq] at h
  obtain ⟨⟨rfl, hlevel⟩, hhz⟩ := h
  obtain rfl := Double.eq_of_ne_eq_false hlevel
  rw [makeSource, makeSource]
  match hs : settings.signal with
  | .pink => rfl
  | .white => rfl
  | .sine =>
    rw [hs] at hhz
    have hz' : hz.ne settings.frequencyHz = false := by simpa using hhz
    rw [Double.eq_of_ne_eq_false hz']

/-! ### Outputs -/

/-- Whether `pruneOutputs` keeps a channel; `numOutputs <= 0` means "unknown". -/
def keepsOutput (numOutputs ch : ℤ) : Bool := !(ch < 0 || (numOutputs > 0 && ch ≥ numOutputs))

/-- `std::sort`, then `std::unique`. -/
def sortUnique (outputs : List ℤ) : List ℤ := (outputs.insertionSort (· ≤ ·)).destutter (· ≠ ·)

/-- `pruneOutputs(outputs, numOutputs)`: a generator always has somewhere to play. -/
def pruneOutputs (outputs : List ℤ) (numOutputs : ℤ) : List ℤ :=
  match sortUnique (outputs.filter (keepsOutput numOutputs)) with
  | [] => [0]
  | kept => kept

end RtaTool
