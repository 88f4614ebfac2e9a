import Mathlib.Data.Int.Log
import Mathlib.Data.Rat.Floor
import RtaTool.Trace.Trace

/-!
# Blocks of a sound level meter

`meter/Block` and `SplMeter`: a hop of samples goes through a weighting filter into an accumulator
that closes a block every `blockSamples` samples, and the closed blocks wait to be polled. A hop is
pushed in segments that end at the scratch size or at the end of the current block, and whatever a
segment closed is moved to a buffer at once; when that is full, a block is given up and its samples
are counted as dropped on the block being filled.

Arithmetic is exact. What is not arithmetic is a parameter: the weighting filter, the exponential in
a detector's coefficient, the logarithm of a level. The counters of drops are 32 bits wide and wrap.

What a chain does with its clock depends on how many samples it was given and on nothing in them
(`SplMeter.push_clock`). Chains of one channel are given the same hops, so they close their blocks
together.

## Main definitions

* `SplConfig`, `Detector`, `Block`, `BlockAccumulator`, `SplMeter`
* `blocksIn` -- how many blocks a hop completes

## Main results

* `SplMeter.push_clock`
-/

namespace RtaTool

/-! ### Configuration -/

/-- `rta::dsp::WeightingType`. -/
inductive WeightingType
  | A
  | C
  | Z
  deriving DecidableEq, Repr

/-- `SplMetricSpec`, less the detector. -/
structure SplMetricSpec where
  id : Bytes
  weighting : WeightingType := .A
  windowBlocks : ℕ := 1

/-- `SplAlarmSpec`. -/
structure SplAlarmSpec where
  metricId : Bytes
  limitDb : ℚ := 0
  windowBlocks : ℕ := 1
  deriving DecidableEq

/-- The part of `SplConfig` the meters and the alarms read. -/
structure SplConfig where
  blockSeconds : ℚ := 1
  referenceOffsetDb : ℚ := 0
  metrics : List SplMetricSpec := []
  alarms : List SplAlarmSpec := []

namespace SplConfig

/-- `kMaxMetrics`. -/
def kMaxMetrics : ℕ := 16

/-- `acceptedMetricCount()`. -/
def acceptedMetricCount (config : SplConfig) : ℕ :=
  if config.metrics.length < kMaxMetrics then config.metrics.length else kMaxMetrics

/-- `refusedMetricCount()`. -/
def refusedMetricCount (config : SplConfig) : ℕ :=
  config.metrics.length - config.acceptedMetricCount

end SplConfig

/-- `std::exp` in `computeAlpha(sampleRate, tau)`, and `std::log10`. -/
structure MeterMath where
  computeAlpha : ℚ → ℚ → ℚ
  log10 : ℚ → ℚ

/-- `rta::dsp::Weighting`: designed for a type and a sample rate, then one sample at a time. The
transcendental functions a meter uses come with it. -/
class WeightingFilter (Filter : Type) where
  design : WeightingType → ℚ → Filter
  process : Filter → ℚ → Filter × ℚ
  math : MeterMath

/-- Passes every sample on, as any weighting does with silence. -/
structure Through where

instance : WeightingFilter Through where
  design _ _ := {}
  process f x := (f, x)
  math := ⟨fun _ _ => 0, fun x => Int.log 10 x⟩

/-- `kLevelFloorDb`. -/
def kLevelFloorDb : ℚ := -200

/-- `10 log10` of a mean square, not below the floor. -/
def MeterMath.levelDb (math : MeterMath) (meanSquare : ℚ) : ℚ :=
  if ¬ 0 < meanSquare then kLevelFloorDb
  else if 10 * math.log10 meanSquare < kLevelFloorDb then kLevelFloorDb
  else 10 * math.log10 meanSquare

/-! ### Detectors -/

/-- `TimeWeighting`. -/
inductive TimeWeighting
  | fast
  | slow
  | impulse
  deriving DecidableEq, Repr

/-- `riseSeconds(w)`. -/
def TimeWeighting.riseSeconds : TimeWeighting → ℚ
  | .fast => 1 / 8
  | .slow => 1
  | .impulse => 35 / 1000

/-- `decaySeconds(w)`. -/
def TimeWeighting.decaySeconds : TimeWeighting → ℚ
  | .fast => 1 / 8
  | .slow => 1
  | .impulse => 3 / 2

/-- `Detector`: an exponential mean square. -/
structure Detector where
  alphaRise : ℚ
  alphaDecay : ℚ
  meanSquare : ℚ

namespace Detector

/-- The constructor. -/
def make (math : MeterMath) (weighting : TimeWeighting) (sampleRate : ℚ) : Detector where
  alphaRise := math.computeAlpha sampleRate weighting.riseSeconds
  alphaDecay := math.computeAlpha sampleRate weighting.decaySeconds
  meanSquare := 0

/-- `processSample(x)`. -/
def processSample (d : Detector) (x : ℚ) : Detector :=
  let alpha := if d.meanSquare < x * x then d.alphaRise else d.alphaDecay
  { d with meanSquare := d.meanSquare + alpha * (x * x - d.meanSquare) }

end Detector

/-! ### Blocks -/

/-- `flagMask(BlockFlag::Overload)`. -/
def overloadFlag : UInt32 := 1

/-- `flagMask(BlockFlag::Dropped)`. -/
def droppedFlag : UInt32 := 4

/-- `flagMask(BlockFlag::CalibrationInvalid)`, which is `kExcludingFlags`. -/
def calibrationInvalidFlag : UInt32 := 8

/-- `flagMask(BlockFlag::Gap)`. -/
def gapFlag : UInt32 := 16

/-- `Block`, over the types of its energy and of its levels. -/
structure Block (D : Type := ℚ) (F : Type := ℚ) where
  blockIndex : ℕ
  blockSamples : ℕ
  droppedSamples : ℕ
  sumSquares : D
  maxFastDb : F
  maxSlowDb : F
  peakDb : F
  flags : UInt32
  deriving DecidableEq

/-- `BlockAccumulator`. -/
structure BlockAccumulator where
  blockSamples : ℕ
  pending : ℕ
  nextIndex : ℕ
  sumSquares : ℚ
  maxFastMeanSquare : ℚ
  maxSlowMeanSquare : ℚ
  maxPeakSquare : ℚ
  droppedSamples : ℕ
  flags : UInt32
  fast : Detector
  slow : Detector
  ready : List Block
  pending_lt : pending < blockSamples

namespace BlockAccumulator

/-- `kReadyCapacity`. -/
def kReadyCapacity : ℕ := 4

/-- The constructor: a block has at least one sample. -/
def make (math : MeterMath) (blockSamples : ℕ) (sampleRate : ℚ) : BlockAccumulator where
  blockSamples := max 1 blockSamples
  pending := 0
  nextIndex := 0
  sumSquares := 0
  maxFastMeanSquare := 0
  maxSlowMeanSquare := 0
  maxPeakSquare := 0
  droppedSamples := 0
  flags := 0
  fast := .make math .fast sampleRate
  slow := .make math .slow sampleRate
  ready := []
  pending_lt := by omega

/-- `noteDroppedSamples(count)`: the counter has 32 bits. -/
def noteDroppedSamples (acc : BlockAccumulator) (count : ℕ) : BlockAccumulator :=
  if count = 0 then acc
  else
    { acc with
      droppedSamples := (acc.droppedSamples + count) % 2 ^ 32
      flags := acc.flags ||| gapFlag }

/-- `setFlag(f)`. -/
def setFlag (acc : BlockAccumulator) (flag : UInt32) : BlockAccumulator :=
  { acc with flags := acc.flags ||| flag }

/-- The block `closeBlock` completes. -/
def closed (math : MeterMath) (acc : BlockAccumulator) : Block where
  blockIndex := acc.nextIndex
  blockSamples := acc.blockSamples
  droppedSamples := acc.droppedSamples
  sumSquares := acc.sumSquares
  maxFastDb := math.levelDb acc.maxFastMeanSquare
  maxSlowDb := math.levelDb acc.maxSlowMeanSquare
  peakDb := math.levelDb acc.maxPeakSquare
  flags := acc.flags

/-- `closeBlock()`: everything rearms but the detectors. -/
def closeBlock (math : MeterMath) (acc : BlockAccumulator) : BlockAccumulator where
  blockSamples := acc.blockSamples
  pending := 0
  nextIndex := acc.nextIndex + 1
  sumSquares := 0
  maxFastMeanSquare := 0
  maxSlowMeanSquare := 0
  maxPeakSquare := 0
  droppedSamples := 0
  flags := 0
  fast := acc.fast
  slow := acc.slow
  ready := acc.ready ++ [acc.closed math]
  pending_lt := acc.pending.zero_le.trans_lt acc.pending_lt

/-- The energy and the maxima of one sample `x` of the weighted and `p` of the peak stream. -/
def accumulate (acc : BlockAccumulator) (x p : ℚ) : BlockAccumulator :=
  let fast := acc.fast.processSample x
  let slow := acc.slow.processSample x
  { acc with
    sumSquares := acc.sumSquares + x * x
    fast := fast
    slow := slow
    maxFastMeanSquare := max acc.maxFastMeanSquare fast.meanSquare
    maxSlowMeanSquare := max acc.maxSlowMeanSquare slow.meanSquare
    maxPeakSquare := max acc.maxPeakSquare (p * p) }

/-- One sample of `push`; the block is closed when it is full. -/
def sample (math : MeterMath) (acc : BlockAccumulator) (x p : ℚ) : BlockAccumulator :=
  let acc := acc.accumulate x p
  if h : acc.pending + 1 < acc.blockSamples then
    { acc with pending := acc.pending + 1, pending_lt := h }
  else acc.closeBlock math

/-- The loop of `push`: the accumulator, and how many samples it took before `kReadyCapacity` blocks
were waiting. -/
def pushSamples (math : MeterMath) (acc : BlockAccumulator) :
    List (ℚ × ℚ) → BlockAccumulator × ℕ
  | [] => (acc, 0)
  | (x, p) :: samples =>
    if kReadyCapacity ≤ acc.ready.length then (acc, 0)
    else
      let r := (acc.sample math x p).pushSamples math samples
      (r.1, r.2 + 1)

/-- `push(weighted, peakStream)`: refused if the streams differ in length. -/
def push (math : MeterMath) (acc : BlockAccumulator) (weighted peak : List ℚ) :
    BlockAccumulator × ℕ :=
  if weighted.length ≠ peak.length then (acc, 0) else acc.pushSamples math (weighted.zip peak)

end BlockAccumulator

/-! ### The meter -/

/-- `SplMeter`. -/
structure SplMeter (Filter : Type) where
  mainWeighting : Filter
  peakWeighting : Filter
  accumulator : BlockAccumulator
  overloadRun : ℕ
  lnDetector : Detector
  lnSampleCounter : ℕ
  lnSamplesPerTick : ℕ
  lnTicks : List ℚ
  lnTickCapacity : ℕ
  overflowedLnTicks : ℕ
  readyBuffer : List Block

namespace SplMeter

variable {Filter : Type}

/-- `kScratchSamples`, which is also `kReadyBufferCapacity`. -/
def kScratchSamples : ℕ := 1024

/-- `kOverloadRunLength`. -/
def kOverloadRunLength : ℕ := 3

/-- `rta::dsp::kFullScaleThreshold`. -/
def kFullScaleThreshold : ℚ := 1 - 1 / 2 ^ 15

/-- A positive count rounded, and at least one. -/
def roundedCount (x : ℚ) : ℕ := if x + 1 / 2 < 1 then 1 else ⌊x + 1 / 2⌋.toNat

/-- `blockSamplesFor(blockSeconds, sampleRate)`: rounded, and at least one. -/
def blockSamplesFor (blockSeconds sampleRate : ℚ) : ℕ :=
  if ¬ 0 < blockSeconds ∨ ¬ 0 < sampleRate then 1 else roundedCount (blockSeconds * sampleRate)

/-- `lnSamplesPerTickFor(sampleRate)`. -/
def lnSamplesPerTickFor (sampleRate : ℚ) : ℕ :=
  if ¬ 0 < sampleRate then 1 else roundedCount (1 / 10 * sampleRate)

/-- `ticksPerBlockFor(blockSeconds)`. -/
def ticksPerBlockFor (blockSeconds : ℚ) : ℕ :=
  if ¬ 0 < blockSeconds then 1 else roundedCount (blockSeconds / (1 / 10))

/-- `lnTickBufferCapacity(blockSeconds)`. -/
def lnTickBufferCapacity (blockSeconds : ℚ) : ℕ :=
  max 16 ((BlockAccumulator.kReadyCapacity + 2) * ticksPerBlockFor blockSeconds)

/-- The constructor. -/
def make [WeightingFilter Filter] (config : SplConfig) (weighting : WeightingType)
    (sampleRate : ℚ) : SplMeter Filter where
  mainWeighting := WeightingFilter.design weighting sampleRate
  peakWeighting := WeightingFilter.design .C sampleRate
  accumulator := .make (WeightingFilter.math Filter)
    (blockSamplesFor config.blockSeconds sampleRate) sampleRate
  overloadRun := 0
  lnDetector := .make (WeightingFilter.math Filter) .fast sampleRate
  lnSampleCounter := 0
  lnSamplesPerTick := lnSamplesPerTickFor sampleRate
  lnTicks := []
  lnTickCapacity := lnTickBufferCapacity config.blockSeconds
  overflowedLnTicks := 0
  readyBuffer := []

/-- `noteDroppedSamples(count)`. -/
def noteDroppedSamples (m : SplMeter Filter) (count : ℕ) : SplMeter Filter :=
  { m with accumulator := m.accumulator.noteDroppedSamples count }

/-- A weighting filter over a segment. -/
def weigh [WeightingFilter Filter] (f : Filter) : List ℚ → Filter × List ℚ
  | [] => (f, [])
  | x :: xs =>
    let y := WeightingFilter.process f x
    let r := weigh y.1 xs
    (r.1, y.2 :: r.2)

/-- One sample of the percentile feed: a level is recorded on every tick of its own clock, or
counted where there is no room for it. -/
def lnSample [WeightingFilter Filter] (m : SplMeter Filter) (x : ℚ) : SplMeter Filter :=
  let detector := m.lnDetector.processSample x
  let m := { m with lnDetector := detector, lnSampleCounter := m.lnSampleCounter + 1 }
  if m.lnSampleCounter % m.lnSamplesPerTick = 0 then
    if m.lnTicks.length < m.lnTickCapacity then
      { m with
        lnTicks := m.lnTicks ++ [(WeightingFilter.math Filter).levelDb detector.meanSquare] }
    else { m with overflowedLnTicks := m.overflowedLnTicks + 1 }
  else m

/-- The overload run over a raw segment: its length at the end, and whether it was ever long
enough. -/
def overload (run : ℕ) : List ℚ → ℕ × Bool
  | [] => (run, false)
  | x :: xs =>
    if kFullScaleThreshold ≤ |x| then
      let r := overload (run + 1) xs
      (r.1, r.2 || decide (kOverloadRunLength ≤ run + 1))
    else overload 0 xs

/-- The poll loop of `push`: every block the accumulator had ready is buffered, or given up and
counted on the block being filled. -/
def drain (m : SplMeter Filter) : List Block → SplMeter Filter
  | [] => m
  | block :: blocks =>
    if m.readyBuffer.length < kScratchSamples then
      drain { m with readyBuffer := m.readyBuffer ++ [block] } blocks
    else
      drain
        { m with
          accumulator := (m.accumulator.setFlag droppedFlag).noteDroppedSamples
            ((block.blockSamples + block.droppedSamples) % 2 ^ 32) }
        blocks

/-- One segment of `push`, and how much of it the accumulator took. -/
def pushSegment [WeightingFilter Filter] (m : SplMeter Filter) (segment : List ℚ) :
    SplMeter Filter × ℕ :=
  let main := weigh m.mainWeighting segment
  let peak := weigh m.peakWeighting segment
  let ln := main.2.foldl lnSample m
  let run := overload m.overloadRun segment
  let acc := if run.2 then m.accumulator.setFlag overloadFlag else m.accumulator
  let pushed := acc.push (WeightingFilter.math Filter) main.2 peak.2
  (drain
    { ln with
      mainWeighting := main.1
      peakWeighting := peak.1
      accumulator := { pushed.1 with ready := [] }
      overloadRun := run.1
      readyBuffer := m.readyBuffer }
    pushed.1.ready, pushed.2)

/-- The loop of `push`. A segment has at least one sample, so the hop's length bounds the number of
turns and serves as the fuel. -/
def pushFrom [WeightingFilter Filter] : ℕ → SplMeter Filter → List ℚ → SplMeter Filter
  | 0, m, _ => m
  | fuel + 1, m, hop =>
    if hop = [] then m
    else
      let room := m.accumulator.blockSamples - m.accumulator.pending
      let n := min (min kScratchSamples room) hop.length
      let r := m.pushSegment (hop.take n)
      if r.2 < n then
        { r.1 with
          accumulator := (r.1.accumulator.setFlag droppedFlag).noteDroppedSamples (n - r.2) }
      else pushFrom fuel r.1 (hop.drop n)

/-- `push(hop)`. -/
def push [WeightingFilter Filter] (m : SplMeter Filter) (hop : List ℚ) : SplMeter Filter :=
  pushFrom hop.length { m with lnTicks := [] } hop

/-- `poll()`: the oldest waiting block, and the meter without it. -/
def poll (m : SplMeter Filter) : Option Block × SplMeter Filter :=
  match m.readyBuffer with
  | block :: rest => (some block, { m with readyBuffer := rest })
  | [] =>
    match m.accumulator.ready with
    | block :: rest =>
      (some block, { m with accumulator := { m.accumulator with ready := rest } })
    | [] => (none, m)

/-- `poll()` until it returns nothing: every waiting block, oldest first, and the meter without
them. -/
def pollAll (m : SplMeter Filter) : List Block × SplMeter Filter :=
  (m.readyBuffer ++ m.accumulator.ready,
    { m with readyBuffer := [], accumulator := { m.accumulator with ready := [] } })

end SplMeter

/-! ### The clock -/

namespace BlockAccumulator

theorem noteDroppedSamples_clock (acc : BlockAccumulator) (count : ℕ) :
    (acc.noteDroppedSamples count).blockSamples = acc.blockSamples ∧
      (acc.noteDroppedSamples count).pending = acc.pending ∧
      (acc.noteDroppedSamples count).ready = acc.ready := by
  rw [noteDroppedSamples]
  split
  · exact ⟨rfl, rfl, rfl⟩
  · exact ⟨rfl, rfl, rfl⟩

section

variable (math : MeterMath)

variable {acc : BlockAccumulator}

/-- With no block waiting the loop takes its next sample. -/
theorem pushSamples_cons (hready : acc.ready = []) (x p : ℚ) (xs : List (ℚ × ℚ)) :
    acc.pushSamples math ((x, p) :: xs) =
      (((acc.sample math x p).pushSamples math xs).1,
        ((acc.sample math x p).pushSamples math xs).2 + 1) := by
  have hnot : ¬ kReadyCapacity ≤ acc.ready.length := by
    rw [hready]
    decide
  exact if_neg hnot

theorem sample_open (h : acc.pending + 1 < acc.blockSamples) (x p : ℚ) :
    acc.sample math x p =
      { acc.accumulate x p with pending := acc.pending + 1, pending_lt := h } :=
  dif_pos h

theorem sample_full (h : ¬ acc.pending + 1 < acc.blockSamples) (x p : ℚ) :
    acc.sample math x p = (acc.accumulate x p).closeBlock math :=
  dif_neg h

theorem pushSamples_of_room (acc : BlockAccumulator) (xs : List (ℚ × ℚ))
    (hready : acc.ready = []) (hroom : acc.pending + xs.length ≤ acc.blockSamples) :
    (acc.pushSamples math xs).2 = xs.length ∧
      (acc.pushSamples math xs).1.blockSamples = acc.blockSamples ∧
      (acc.pushSamples math xs).1.pending = (acc.pending + xs.length) % acc.blockSamples ∧
      (acc.pushSamples math xs).1.ready.length =
        (acc.pending + xs.length) / acc.blockSamples := by
  induction xs generalizing acc with
  | nil =>
    rw [pushSamples, List.length_nil, Nat.add_zero, Nat.mod_eq_of_lt acc.pending_lt,
      Nat.div_eq_of_lt acc.pending_lt, hready]
    exact ⟨rfl, rfl, rfl, rfl⟩
  | cons xp xs ih =>
    obtain ⟨x, p⟩ := xp
    rw [pushSamples_cons math hready]
    dsimp only
    rw [List.length_cons] at hroom ⊢
    by_cases h : acc.pending + 1 < acc.blockSamples
    · rw [sample_open math h]
      obtain ⟨h1, h2, h3, h4⟩ := ih { acc.accumulate x p with
        pending := acc.pending + 1, pending_lt := h } hready (by
          show acc.pending + 1 + xs.length ≤ acc.blockSamples
          omega)
      have hadd : acc.pending + 1 + xs.length = acc.pending + (xs.length + 1) := by omega
      refine ⟨congrArg (· + 1) h1, h2, h3.trans ?_, h4.trans ?_⟩
      · exact congrArg (· % acc.blockSamples) hadd
      · exact congrArg (· / acc.blockSamples) hadd
    · rw [sample_full math h]
      have hlt := acc.pending_lt
      obtain rfl : xs = [] := List.eq_nil_of_length_eq_zero (by omega)
      have hfull : acc.pending + 1 = acc.blockSamples := by omega
      have hpos : 0 < acc.blockSamples := by omega
      rw [List.length_nil, Nat.zero_add, hfull, Nat.mod_self, Nat.div_self hpos]
      exact ⟨rfl, rfl, rfl, by simp [pushSamples, closeBlock, accumulate, hready]⟩

theorem push_of_room (acc : BlockAccumulator) {xs ps : List ℚ}
    (hlen : xs.length = ps.length) (hready : acc.ready = [])
    (hroom : acc.pending + xs.length ≤ acc.blockSamples) :
    (acc.push math xs ps).2 = xs.length ∧
      (acc.push math xs ps).1.blockSamples = acc.blockSamples ∧
      (acc.push math xs ps).1.pending = (acc.pending + xs.length) % acc.blockSamples ∧
      (acc.push math xs ps).1.ready.length = (acc.pending + xs.length) / acc.blockSamples := by
  have hzip : (xs.zip ps).length = xs.length := by rw [List.length_zip, hlen, Nat.min_self]
  rw [push, if_neg (not_not.mpr hlen)]
  have h := acc.pushSamples_of_room math (xs.zip ps) hready (by rwa [hzip])
  rwa [hzip] at h

end

end BlockAccumulator

namespace SplMeter

variable {Filter : Type}

theorem length_weigh [WeightingFilter Filter] (f : Filter) (xs : List ℚ) :
    (weigh f xs).2.length = xs.length := by
  induction xs generalizing f with
  | nil => rfl
  | cons x xs ih => exact congrArg (· + 1) (ih _)

theorem drain_clock (m : SplMeter Filter) (blocks : List Block)
    (hcap : m.readyBuffer.length ≤ kScratchSamples) :
    (drain m blocks).accumulator.blockSamples = m.accumulator.blockSamples ∧
      (drain m blocks).accumulator.pending = m.accumulator.pending ∧
      (drain m blocks).accumulator.ready = m.accumulator.ready ∧
      (drain m blocks).readyBuffer.length =
        min kScratchSamples (m.readyBuffer.length + blocks.length) := by
  induction blocks generalizing m with
  | nil =>
    rw [drain, List.length_nil, Nat.add_zero, Nat.min_eq_right hcap]
    exact ⟨rfl, rfl, rfl, rfl⟩
  | cons block blocks ih =>
    rw [drain]
    split
    · rename_i hlt
      obtain ⟨h1, h2, h3, h4⟩ := ih { m with readyBuffer := m.readyBuffer ++ [block] }
        (by rw [List.length_append, List.length_singleton]; exact hlt)
      refine ⟨h1, h2, h3, h4.trans ?_⟩
      rw [List.length_append, List.length_singleton, List.length_cons]
      congr 1
      omega
    · obtain ⟨h1, h2, h3, h4⟩ := ih { m with
        accumulator := (m.accumulator.setFlag droppedFlag).noteDroppedSamples
          ((block.blockSamples + block.droppedSamples) % 2 ^ 32) } hcap
      obtain ⟨n1, n2, n3⟩ := (m.accumulator.setFlag droppedFlag).noteDroppedSamples_clock
        ((block.blockSamples + block.droppedSamples) % 2 ^ 32)
      refine ⟨h1.trans n1, h2.trans n2, h3.trans n3, h4.trans ?_⟩
      rw [List.length_cons]
      dsimp only
      omega

/-- How many blocks a clock completes over so many samples. -/
def blocksIn (blockSamples pending samples : ℕ) : ℕ := (pending + samples) / blockSamples

/-- The clock of a meter after some samples, `buffered` blocks having been waiting. -/
structure ClockAfter (m m' : SplMeter Filter) (samples : ℕ) : Prop where
  blockSamples : m'.accumulator.blockSamples = m.accumulator.blockSamples
  pending : m'.accumulator.pending =
    (m.accumulator.pending + samples) % m.accumulator.blockSamples
  ready : m'.accumulator.ready = []
  readyBuffer : m'.readyBuffer.length = min kScratchSamples
    (m.readyBuffer.length + blocksIn m.accumulator.blockSamples m.accumulator.pending samples)

variable {m : SplMeter Filter}

theorem pushSegment_clock [WeightingFilter Filter]
    (segment : List ℚ) (hready : m.accumulator.ready = [])
    (hcap : m.readyBuffer.length ≤ kScratchSamples)
    (hroom : m.accumulator.pending + segment.length ≤ m.accumulator.blockSamples) :
    (m.pushSegment segment).2 = segment.length ∧
      ClockAfter m (m.pushSegment segment).1 segment.length := by
  rw [pushSegment]
  dsimp only
  have hlen : (weigh m.mainWeighting segment).2.length =
      (weigh m.peakWeighting segment).2.length := by rw [length_weigh, length_weigh]
  have hacc : ∀ acc : BlockAccumulator, acc.blockSamples = m.accumulator.blockSamples →
      acc.pending = m.accumulator.pending → acc.ready = [] →
      (acc.push (WeightingFilter.math Filter) (weigh m.mainWeighting segment).2
        (weigh m.peakWeighting segment).2).2 = segment.length ∧
      (acc.push (WeightingFilter.math Filter) (weigh m.mainWeighting segment).2
        (weigh m.peakWeighting segment).2).1.blockSamples = m.accumulator.blockSamples ∧
      (acc.push (WeightingFilter.math Filter) (weigh m.mainWeighting segment).2
        (weigh m.peakWeighting segment).2).1.pending =
        (m.accumulator.pending + segment.length) % m.accumulator.blockSamples ∧
      (acc.push (WeightingFilter.math Filter) (weigh m.mainWeighting segment).2
        (weigh m.peakWeighting segment).2).1.ready.length =
        (m.accumulator.pending + segment.length) / m.accumulator.blockSamples := by
    intro acc hbs hp hr
    have h := acc.push_of_room (WeightingFilter.math Filter) hlen hr
      (by rw [length_weigh, hbs, hp]; exact hroom)
    rwa [length_weigh, hbs, hp] at h
  have hclock := hacc
    (if (overload m.overloadRun segment).2 then m.accumulator.setFlag overloadFlag
      else m.accumulator)
    (by split <;> rfl) (by split <;> rfl) (by split <;> exact hready)
  generalize (if (overload m.overloadRun segment).2 then m.accumulator.setFlag overloadFlag
    else m.accumulator) = acc at hclock
  generalize acc.push (WeightingFilter.math Filter) (weigh m.mainWeighting segment).2
    (weigh m.peakWeighting segment).2 = pushed at hclock
  obtain ⟨htaken, hbs, hpending, hlen⟩ := hclock
  refine ⟨htaken, ?_⟩
  obtain ⟨h1, h2, h3, h4⟩ := drain_clock
    { (weigh m.mainWeighting segment).2.foldl lnSample m with
      mainWeighting := (weigh m.mainWeighting segment).1
      peakWeighting := (weigh m.peakWeighting segment).1
      accumulator := { pushed.1 with ready := [] }
      overloadRun := (overload m.overloadRun segment).1
      readyBuffer := m.readyBuffer } pushed.1.ready hcap
  exact ⟨h1.trans hbs, h2.trans hpending, h3, h4.trans (by rw [hlen]; rfl)⟩

/-- Counting blocks is additive over consecutive samples. -/
theorem blocksIn_add {b : ℕ} (hb : 0 < b) (p m n : ℕ) :
    blocksIn b p (m + n) = blocksIn b p m + blocksIn b ((p + m) % b) n := by
  have hsplit : p + (m + n) = (p + m) % b + n + b * ((p + m) / b) := by
    have := Nat.mod_add_div (p + m) b
    omega
  rw [blocksIn, hsplit, Nat.add_mul_div_left _ _ hb, blocksIn, blocksIn, Nat.add_comm]

theorem ClockAfter.refl (hready : m.accumulator.ready = [])
    (hcap : m.readyBuffer.length ≤ kScratchSamples) : ClockAfter m m 0 := by
  have hlt := m.accumulator.pending_lt
  refine ⟨rfl, (Nat.mod_eq_of_lt hlt).symm, hready, ?_⟩
  rw [blocksIn, Nat.add_zero, Nat.div_eq_of_lt hlt, Nat.add_zero, Nat.min_eq_right hcap]

theorem ClockAfter.trans {m m' t : SplMeter Filter} {n k : ℕ} (h : ClockAfter m m' n)
    (h' : ClockAfter m' t k) : ClockAfter m t (n + k) := by
  have hb : 0 < m.accumulator.blockSamples :=
    (Nat.zero_le _).trans_lt m.accumulator.pending_lt
  refine ⟨h'.blockSamples.trans h.blockSamples, ?_, h'.ready, ?_⟩
  · rw [h'.pending, h.pending, h.blockSamples, ← Nat.add_assoc, Nat.mod_add_mod]
  · rw [h'.readyBuffer, h.readyBuffer, h.pending, h.blockSamples, blocksIn_add hb]
    omega

/-- The loop of `push` from one segment to the next. A segment stays within the open block, so the
accumulator takes all of it and the loop never leaves early. -/
theorem pushFrom_induction [WeightingFilter Filter]
    {motive : SplMeter Filter → List ℚ → SplMeter Filter → Prop}
    (stay : ∀ m : SplMeter Filter, m.accumulator.ready = [] →
      m.readyBuffer.length ≤ kScratchSamples → motive m [] m)
    (turn : ∀ (m t : SplMeter Filter) (segment rest : List ℚ), m.accumulator.ready = [] →
      m.readyBuffer.length ≤ kScratchSamples →
      m.accumulator.pending + segment.length ≤ m.accumulator.blockSamples →
      motive (m.pushSegment segment).1 rest t → motive m (segment ++ rest) t)
    (fuel : ℕ) (m : SplMeter Filter) (hop : List ℚ) (hready : m.accumulator.ready = [])
    (hcap : m.readyBuffer.length ≤ kScratchSamples) (hfuel : hop.length ≤ fuel) :
    motive m hop (pushFrom fuel m hop) := by
  induction fuel generalizing m hop with
  | zero =>
    obtain rfl : hop = [] := List.eq_nil_of_length_eq_zero (Nat.le_zero.mp hfuel)
    exact stay m hready hcap
  | succ fuel ih =>
    rw [pushFrom]
    by_cases hnil : hop = []
    · rw [if_pos hnil, hnil]
      exact stay m hready hcap
    · rw [if_neg hnil]
      dsimp only
      have hpos := List.length_pos_iff.mpr hnil
      have hlt := m.accumulator.pending_lt
      obtain ⟨n, hn⟩ : ∃ n, n = min (min kScratchSamples
        (m.accumulator.blockSamples - m.accumulator.pending)) hop.length := ⟨_, rfl⟩
      have hscratch : 0 < kScratchSamples := by decide
      have hlen : (hop.take n).length = n := by
        rw [List.length_take]
        omega
      have hroom : m.accumulator.pending + (hop.take n).length ≤ m.accumulator.blockSamples := by
        omega
      obtain ⟨htaken, hseg⟩ := pushSegment_clock (hop.take n) hready hcap hroom
      rw [← hn, htaken, hlen, if_neg (lt_irrefl n)]
      have hcap' : (m.pushSegment (hop.take n)).1.readyBuffer.length ≤ kScratchSamples := by
        rw [hseg.readyBuffer]
        exact Nat.min_le_left _ _
      have hrest := turn m _ (hop.take n) (hop.drop n) hready hcap hroom
        (ih _ (hop.drop n) hseg.ready hcap' (by rw [List.length_drop]; omega))
      rwa [List.take_append_drop] at hrest

theorem pushFrom_clock [WeightingFilter Filter] (fuel : ℕ) (m : SplMeter Filter) (hop : List ℚ)
    (hready : m.accumulator.ready = []) (hcap : m.readyBuffer.length ≤ kScratchSamples)
    (hfuel : hop.length ≤ fuel) :
    ClockAfter m (pushFrom fuel m hop) hop.length := by
  refine pushFrom_induction (motive := fun m hop t => ClockAfter m t hop.length)
    (fun m hready hcap => .refl hready hcap) ?_ fuel m hop hready hcap hfuel
  intro m t segment rest hready hcap hroom hrest
  obtain ⟨-, hseg⟩ := pushSegment_clock segment hready hcap hroom
  rw [List.length_append]
  exact hseg.trans hrest

/-- **What a hop does to the clock.** Every sample is taken, and the buffer holds one block for
each time the clock went round, up to its capacity. -/
theorem push_clock [WeightingFilter Filter]
    (hready : m.accumulator.ready = []) (hcap : m.readyBuffer.length ≤ kScratchSamples)
    (hop : List ℚ) : ClockAfter m (m.push hop) hop.length :=
  have h := pushFrom_clock hop.length { m with lnTicks := [] } hop hready hcap le_rfl
  ⟨h.blockSamples, h.pending, h.ready, h.readyBuffer⟩

/-! ### Polling -/

/-- What `poll` does: it takes the oldest block of the buffer, or of the accumulator, or nothing. -/
theorem poll_cases (m : SplMeter Filter) :
    (∃ b rest, m.readyBuffer = b :: rest ∧ m.poll = (some b, { m with readyBuffer := rest })) ∨
      (∃ b rest, m.readyBuffer = [] ∧ m.accumulator.ready = b :: rest ∧
        m.poll = (some b, { m with accumulator := { m.accumulator with ready := rest } })) ∨
      m.readyBuffer = [] ∧ m.accumulator.ready = [] ∧ m.poll = (none, m) := by
  rw [poll.eq_def]
  cases m.readyBuffer with
  | cons b rest => exact .inl ⟨b, rest, rfl, rfl⟩
  | nil =>
    cases m.accumulator.ready with
    | cons b rest => exact .inr (.inl ⟨b, rest, rfl, rfl, rfl⟩)
    | nil => exact .inr (.inr ⟨rfl, rfl, rfl⟩)

end SplMeter

end RtaTool
