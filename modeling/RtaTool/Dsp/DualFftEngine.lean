import Mathlib.Algebra.Group.Int.Defs
import Mathlib.Data.Rat.Defs
import RtaTool.Dsp.RingBuffer
import RtaTool.Lib.Framing

/-!
# The dual FFT engine's frames

The engine compares a reference with a measurement that lags behind it. It takes the delay out
before the transform, by discarding the leading samples of one of the two streams, and then takes
frames from both, one every hop. The two streams come in spans of any length, a ring for each holds
what has not been analysed, and a skip that is not yet used up outlives the call.

What a frame pair does to the averages is a function of the pair, so an engine has the pairs here,
in `frames`, since the constructor or the last `reset`. `processFrom` and `drainFramesFrom` have
fuel, and running out of it is an error of its own.

## Main definitions

* `DualFftConfig`, `DualFftError`, `DualFftEngine`
* `DualFftEngine.make`, `drainFrames`, `process`, `reset`
* `DualFftEngine.run` -- any sequence of calls
-/

namespace RtaTool

/-- `TransferAveraging`. -/
inductive TransferAveraging
  | fifo
  | exponential
  deriving DecidableEq, Repr

/-- `DualFftEngine::Config`, without the window type. -/
structure DualFftConfig where
  fftSize : ℕ := 4096
  hopSize : ℕ := 2048
  sampleRate : ℚ := 48000
  averaging : TransferAveraging := .fifo
  fifoDepth : ℕ := 16
  timeConstantSeconds : ℚ := 1 / 2
  referenceDelaySamples : ℤ := 0
  minimumEffectiveAverages : ℚ := 8
  deriving DecidableEq, Repr

/-- What the engine throws. -/
inductive DualFftError
  | windowSize
  | vectorLength
  | fftSize
  | ringCapacity
  | delayTooLarge
  | hopSize
  | sampleRate
  | fifoDepth
  | timeConstant
  | minimumAverages
  | lengthMismatch
  | cannotDrain
  | shortFramePair
  | outOfFuel
  deriving DecidableEq, Repr

/-- `what()`. A vector that is too long throws the library's own text. -/
def DualFftError.what : DualFftError → String
  | .windowSize => "Window size must be greater than zero"
  | .vectorLength => ""
  | .fftSize => "RealFft size must be a power of two and at least 4"
  | .ringCapacity => "RingBuffer capacity must be greater than zero"
  | .delayTooLarge => "DualFftEngine referenceDelaySamples magnitude exceeds 1<<20 samples"
  | .hopSize => "DualFftEngine hopSize must be within 1..fftSize"
  | .sampleRate => "DualFftEngine sampleRate must be positive"
  | .fifoDepth => "DualFftEngine fifoDepth must be at least 1"
  | .timeConstant => "DualFftEngine timeConstantSeconds must be positive"
  | .minimumAverages => "DualFftEngine minimumEffectiveAverages must be at least 1.0"
  | .lengthMismatch => "DualFftEngine::process: reference and measurement must be the same length " ++
      "-- they are the same time instant on two channels."
  | .cannotDrain => "DualFftEngine accumulator cannot drain"
  | .shortFramePair => "DualFftEngine read a short frame pair"
  | .outOfFuel => ""

/-- `kMaxReferenceDelaySamples`. -/
def kMaxReferenceDelaySamples : ℤ := 2 ^ 20

/-- The longest vector of floats there is. -/
def maxFloats : ℕ := (2 ^ 63 - 1) / 4

variable {Sample : Type}

/-- `DualFftEngine`. -/
structure DualFftEngine (Sample : Type) where
  config : DualFftConfig
  referenceRing : RingBuffer Sample
  measurementRing : RingBuffer Sample
  referenceSkip : ℕ := 0
  measurementSkip : ℕ := 0
  frameCount : ℕ := 0
  frames : List (List Sample × List Sample) := []

namespace DualFftConfig

/-- `skipMagnitude(config)`. -/
def skipMagnitude (config : DualFftConfig) : Except DualFftError ℕ :=
  if config.referenceDelaySamples < -kMaxReferenceDelaySamples ∨
      kMaxReferenceDelaySamples < config.referenceDelaySamples then .error .delayTooLarge
  else .ok config.referenceDelaySamples.natAbs

/-- `validate()`. -/
def validate (config : DualFftConfig) : Except DualFftError Unit := do
  if config.hopSize = 0 ∨ config.fftSize < config.hopSize then throw .hopSize
  if ¬ 0 < config.sampleRate then throw .sampleRate
  if config.averaging = .fifo ∧ config.fifoDepth = 0 then throw .fifoDepth
  if config.averaging = .exponential ∧ ¬ 0 < config.timeConstantSeconds then throw .timeConstant
  if ¬ 1 ≤ config.minimumEffectiveAverages then throw .minimumAverages

/-- The leading samples of the reference that are discarded. -/
def referenceLead (config : DualFftConfig) : ℕ :=
  if config.referenceDelaySamples < 0 then (-config.referenceDelaySamples).toNat else 0

/-- The leading samples of the measurement that are discarded. -/
def measurementLead (config : DualFftConfig) : ℕ :=
  if 0 < config.referenceDelaySamples then config.referenceDelaySamples.toNat else 0

end DualFftConfig

/-- `std::vector<float>` of a length. -/
def checkFloats (length : ℕ) : Except DualFftError Unit :=
  if maxFloats < length then .error .vectorLength else .ok ()

/-- `Window(type, size)` and `RealFft(size)`, as far as they refuse a size. -/
def checkFftSize (size : ℕ) : Except DualFftError Unit := do
  if size = 0 then throw .windowSize
  checkFloats size
  if size < 4 ∨ size &&& (size - 1) ≠ 0 then throw .fftSize

/-- `bufferCapacity(fftSize, skipMagnitude)`, in `std::size_t`. -/
def bufferCapacity (fftSize skipMagnitude : ℕ) : ℕ :=
  (max ((fftSize * 4 + skipMagnitude) % 2 ^ 64) 4096).nextPowerOfTwo

/-- `RingBuffer<float>(minCapacity)`. -/
def makeRing [Inhabited Sample] (minCapacity : ℕ) : Except DualFftError (RingBuffer Sample) :=
  match RingBuffer.make minCapacity with
  | none => .error .ringCapacity
  | some ring => do
    checkFloats ring.capacity
    return ring

namespace DualFftEngine

/-- `armDelaySkip()`. -/
def armDelaySkip (e : DualFftEngine Sample) : DualFftEngine Sample :=
  { e with
    referenceSkip := e.config.referenceLead
    measurementSkip := e.config.measurementLead }

/-- The constructor. -/
def make [Inhabited Sample] (config : DualFftConfig) :
    Except DualFftError (DualFftEngine Sample) := do
  checkFftSize config.fftSize
  let skip ← config.skipMagnitude
  let referenceRing ← makeRing (bufferCapacity config.fftSize skip)
  let measurementRing ← makeRing (bufferCapacity config.fftSize skip)
  config.validate
  return armDelaySkip
    { config := config, referenceRing := referenceRing, measurementRing := measurementRing }

/-- `analyseFramePair()`. -/
def analyseFramePair (e : DualFftEngine Sample) (reference measurement : List Sample) :
    DualFftEngine Sample :=
  { e with frameCount := e.frameCount + 1, frames := e.frames ++ [(reference, measurement)] }

/-- A turn of the loop of `drainFrames`: a frame of each is analysed, a hop of each discarded. -/
def takeFramePair (e : DualFftEngine Sample) : DualFftEngine Sample :=
  { e with
    referenceRing := (e.referenceRing.discard e.config.hopSize).2
    measurementRing := (e.measurementRing.discard e.config.hopSize).2 }.analyseFramePair
      (e.referenceRing.peek e.config.fftSize 0) (e.measurementRing.peek e.config.fftSize 0)

/-- The loop of `drainFrames`. -/
def drainFramesFrom : ℕ → DualFftEngine Sample → Except DualFftError (DualFftEngine Sample)
  | 0, _ => .error .outOfFuel
  | fuel + 1, e =>
    if e.config.fftSize ≤ e.referenceRing.availableToRead.toNat ∧
        e.config.fftSize ≤ e.measurementRing.availableToRead.toNat then
      if (e.referenceRing.peek e.config.fftSize 0).length ≠ e.config.fftSize ∨
          (e.measurementRing.peek e.config.fftSize 0).length ≠ e.config.fftSize then
        .error .shortFramePair
      else drainFramesFrom fuel e.takeFramePair
    else .ok e

/-- `drainFrames()`. -/
def drainFrames (e : DualFftEngine Sample) : Except DualFftError (DualFftEngine Sample) :=
  drainFramesFrom (e.measurementRing.availableToRead.toNat + 1) e

/-- Samples of the reference, while those of the measurement are skipped. -/
def skipMeasurement (e : DualFftEngine Sample) (samples : List Sample) : DualFftEngine Sample :=
  { e with
    referenceRing := (e.referenceRing.write samples).2
    measurementSkip := e.measurementSkip - samples.length }

/-- Samples of the measurement, while those of the reference are skipped. -/
def skipReference (e : DualFftEngine Sample) (samples : List Sample) : DualFftEngine Sample :=
  { e with
    measurementRing := (e.measurementRing.write samples).2
    referenceSkip := e.referenceSkip - samples.length }

/-- Samples of both. -/
def writeBoth (e : DualFftEngine Sample) (reference measurement : List Sample) :
    DualFftEngine Sample :=
  { e with
    referenceRing := (e.referenceRing.write reference).2
    measurementRing := (e.measurementRing.write measurement).2 }

/-- The room of both rings. -/
def roomOfBoth (e : DualFftEngine Sample) : ℕ :=
  min e.referenceRing.availableToWrite.toNat e.measurementRing.availableToWrite.toNat

/-- The loop of `process`, with what is left of the two spans. -/
def processFrom : ℕ → DualFftEngine Sample → List Sample → List Sample →
    Except DualFftError (DualFftEngine Sample)
  | 0, e, reference, _ => if reference.length = 0 then .ok e else .error .outOfFuel
  | fuel + 1, e, reference, measurement =>
    if reference.length = 0 then .ok e
    else if 0 < e.measurementSkip then
      let room := e.referenceRing.availableToWrite.toNat
      if room = 0 then do
        let drained ← e.drainFrames
        if drained.referenceRing.availableToWrite.toNat = 0 then throw .cannotDrain
        processFrom fuel drained reference measurement
      else
        let n := min (min e.measurementSkip reference.length) room
        processFrom fuel (e.skipMeasurement (reference.take n)) (reference.drop n)
          (measurement.drop n)
    else if 0 < e.referenceSkip then
      let room := e.measurementRing.availableToWrite.toNat
      if room = 0 then do
        let drained ← e.drainFrames
        if drained.measurementRing.availableToWrite.toNat = 0 then throw .cannotDrain
        processFrom fuel drained reference measurement
      else
        let n := min (min e.referenceSkip reference.length) room
        processFrom fuel (e.skipReference (measurement.take n)) (reference.drop n)
          (measurement.drop n)
    else
      let room := e.roomOfBoth
      if room = 0 then do
        let drained ← e.drainFrames
        if drained.roomOfBoth = 0 then throw .cannotDrain
        processFrom fuel drained reference measurement
      else do
        let n := min room reference.length
        let drained ← (e.writeBoth (reference.take n) (measurement.take n)).drainFrames
        processFrom fuel drained (reference.drop n) (measurement.drop n)

/-- `process(reference, measurement)`. Between two turns that write there is at most one that only
drains. -/
def process (e : DualFftEngine Sample) (reference measurement : List Sample) :
    Except DualFftError (DualFftEngine Sample) :=
  if reference.length ≠ measurement.length then .error .lengthMismatch
  else processFrom (2 * reference.length) e reference measurement

/-- `reset()`. -/
def reset (e : DualFftEngine Sample) : DualFftEngine Sample :=
  armDelaySkip
    { e with
      referenceRing := e.referenceRing.reset
      measurementRing := e.measurementRing.reset
      frameCount := 0
      frames := [] }

end DualFftEngine

/-- A call: a span of both streams, or a reset. -/
inductive EngineCall (Sample : Type)
  | process (span : List (Sample × Sample))
  | reset

/-- A call of an engine. -/
def DualFftEngine.call (e : DualFftEngine Sample) :
    EngineCall Sample → Except DualFftError (DualFftEngine Sample)
  | .process span => e.process (span.map (·.1)) (span.map (·.2))
  | .reset => .ok e.reset

/-- One call after another. -/
def DualFftEngine.run (e : DualFftEngine Sample) (calls : List (EngineCall Sample)) :
    Except DualFftError (DualFftEngine Sample) :=
  calls.foldlM DualFftEngine.call e

end RtaTool
