import Mathlib.Data.List.Induction
import RtaTool.Lib.Transducer
import RtaTool.Measure.SplMeter

/-!
# A meter one sample at a time

A hop goes through a meter in segments, and a segment through five loops: the two filters, the
detector of the percentile levels, the overload run and the accumulator. Each of them carries its
state over from segment to segment. Taken together they do one thing for each sample
(`MeterCore.sample`), and a hop does that for its samples one by one, if the blocks it closes and
the ticks it records have room. So how a stream is cut into hops changes nothing.

The overload flag is raised on a whole segment before its samples are accumulated. A segment ends
where the block ends, so it is raised on the block that the sample is in.

## Main definitions

* `MeterCore`, `MeterCore.sample`, `MeterCore.blocksOf`, `MeterCore.ticksOf`
* `SplMeter.CallFits` -- a call is small enough for its blocks and its ticks
* `LongRunAt` -- a sample is the third or a later one of a run at full scale

## Main results

* `SplMeter.push_core` -- a hop does what its samples do
* `push_partition` -- the output of a stream, however it is cut
-/

namespace RtaTool

/-- What a meter carries from one sample to the next. -/
@[ext] structure MeterCore (Filter : Type) where
  mainWeighting : Filter
  peakWeighting : Filter
  accumulator : BlockAccumulator
  overloadRun : ℕ
  lnDetector : Detector
  lnSampleCounter : ℕ
  lnSamplesPerTick : ℕ

variable {Filter : Type}

/-- What a meter carries, less what it has ready. -/
def SplMeter.core (m : SplMeter Filter) : MeterCore Filter where
  mainWeighting := m.mainWeighting
  peakWeighting := m.peakWeighting
  accumulator := { m.accumulator with ready := [] }
  overloadRun := m.overloadRun
  lnDetector := m.lnDetector
  lnSampleCounter := m.lnSampleCounter
  lnSamplesPerTick := m.lnSamplesPerTick

section

variable (m : SplMeter Filter)

@[simp] theorem SplMeter.core_mainWeighting :
    m.core.mainWeighting = m.mainWeighting := rfl

@[simp] theorem SplMeter.core_peakWeighting :
    m.core.peakWeighting = m.peakWeighting := rfl

@[simp] theorem SplMeter.core_overloadRun :
    m.core.overloadRun = m.overloadRun := rfl

@[simp] theorem SplMeter.core_lnSamplesPerTick :
    m.core.lnSamplesPerTick = m.lnSamplesPerTick := rfl

end

theorem SplMeter.core_accumulator {m : SplMeter Filter} (hready : m.accumulator.ready = []) :
    m.core.accumulator = m.accumulator := by
  obtain ⟨_, _, acc, _, _, _, _, _, _, _, _⟩ := m
  obtain ⟨⟩ := acc
  cases hready
  rfl

/-- The overload run after a sample. -/
def nextRun (run : ℕ) (x : ℚ) : ℕ :=
  if SplMeter.kFullScaleThreshold ≤ |x| then run + 1 else 0

/-- The overload flag, if it is due. -/
def BlockAccumulator.flagged (acc : BlockAccumulator) (due : Bool) : BlockAccumulator :=
  if due then acc.setFlag overloadFlag else acc

namespace MeterCore

variable [WeightingFilter Filter]

/-- The accumulator after a sample, and the block it closed if it did. -/
def accumulate (s : MeterCore Filter) (x : ℚ) : BlockAccumulator :=
  (s.accumulator.flagged (decide (SplMeter.kOverloadRunLength ≤ nextRun s.overloadRun x))).sample
    (WeightingFilter.math Filter) (WeightingFilter.process s.mainWeighting x).2
    (WeightingFilter.process s.peakWeighting x).2

/-- The percentile detector after a sample. -/
def detect (s : MeterCore Filter) (x : ℚ) : Detector :=
  s.lnDetector.processSample (WeightingFilter.process s.mainWeighting x).2

/-- One sample. -/
def sample (s : MeterCore Filter) (x : ℚ) : MeterCore Filter where
  mainWeighting := (WeightingFilter.process s.mainWeighting x).1
  peakWeighting := (WeightingFilter.process s.peakWeighting x).1
  accumulator := { s.accumulate x with ready := [] }
  overloadRun := nextRun s.overloadRun x
  lnDetector := s.detect x
  lnSampleCounter := s.lnSampleCounter + 1
  lnSamplesPerTick := s.lnSamplesPerTick

/-- The block a sample closes. -/
def blockOf (s : MeterCore Filter) (x : ℚ) : List Block := (s.accumulate x).ready

/-- The level a sample ticks. -/
def tickOf (s : MeterCore Filter) (x : ℚ) : List ℚ :=
  if (s.lnSampleCounter + 1) % s.lnSamplesPerTick = 0 then
    [(WeightingFilter.math Filter).levelDb (s.detect x).meanSquare]
  else []

/-- Some samples. -/
def run (s : MeterCore Filter) (xs : List ℚ) : MeterCore Filter := xs.foldl sample s

/-- The blocks they close. -/
def blocksOf (s : MeterCore Filter) (xs : List ℚ) : List Block :=
  Transducer.emitted sample blockOf s xs

/-- The levels they tick. -/
def ticksOf (s : MeterCore Filter) (xs : List ℚ) : List ℚ :=
  Transducer.emitted sample tickOf s xs

end MeterCore

/-! ### The accumulator -/

namespace BlockAccumulator

@[simp] theorem flagged_false (acc : BlockAccumulator) : acc.flagged false = acc := rfl

section

variable (acc : BlockAccumulator) (due : Bool)

@[simp] theorem flagged_blockSamples :
    (acc.flagged due).blockSamples = acc.blockSamples := by
  cases due <;> rfl

@[simp] theorem flagged_pending :
    (acc.flagged due).pending = acc.pending := by
  cases due <;> rfl

theorem flagged_open :
    (acc.flagged due).pending + 1 < (acc.flagged due).blockSamples ↔
      acc.pending + 1 < acc.blockSamples := by
  rw [flagged_pending, flagged_blockSamples]

@[simp] theorem flagged_ready :
    (acc.flagged due).ready = acc.ready := by
  cases due <;> rfl

@[simp] theorem flagged_nextIndex :
    (acc.flagged due).nextIndex = acc.nextIndex := by
  cases due <;> rfl

end

/-- A flag that was raised may be raised again. -/
theorem flagged_flagged (acc : BlockAccumulator) (a b : Bool) :
    (acc.flagged a).flagged b = acc.flagged (a || b) := by
  cases a with
  | false => rfl
  | true =>
    cases b with
    | false => rfl
    | true => simp [flagged, setFlag, UInt32.or_assoc]

variable {acc : BlockAccumulator}

theorem flagged_sample (math : MeterMath)
    (hopen : acc.pending + 1 < acc.blockSamples) (due : Bool) (x p : ℚ) :
    (acc.flagged due).sample math x p = (acc.sample math x p).flagged due := by
  cases due with
  | false => rfl
  | true =>
    have h1 : (acc.accumulate x p).pending + 1 < (acc.accumulate x p).blockSamples := hopen
    have h2 : ((acc.flagged true).accumulate x p).pending + 1 <
        ((acc.flagged true).accumulate x p).blockSamples := hopen
    rw [sample, sample]
    rw [dif_pos h1, dif_pos h2]
    rfl

theorem sample_of_open (math : MeterMath) (hopen : acc.pending + 1 < acc.blockSamples) (x p : ℚ) :
    (acc.sample math x p).blockSamples = acc.blockSamples ∧
      (acc.sample math x p).pending = acc.pending + 1 ∧
      (acc.sample math x p).nextIndex = acc.nextIndex ∧
      (acc.sample math x p).flags = acc.flags ∧ (acc.sample math x p).ready = acc.ready := by
  rw [sample_open math hopen]
  exact ⟨rfl, rfl, rfl, rfl, rfl⟩

theorem sample_of_full (math : MeterMath) (hfull : ¬ acc.pending + 1 < acc.blockSamples) (x p : ℚ) :
    (acc.sample math x p).flags = 0 ∧ (acc.sample math x p).nextIndex = acc.nextIndex + 1 ∧
      ∃ b, (acc.sample math x p).ready = acc.ready ++ [b] ∧ b.blockIndex = acc.nextIndex ∧
        b.flags = acc.flags := by
  rw [sample_full math hfull]
  exact ⟨rfl, rfl, _, rfl, rfl, rfl⟩

theorem with_ready_nil (hready : acc.ready = []) :
    { acc with ready := [] } = acc := by
  obtain ⟨⟩ := acc
  cases hready
  rfl

end BlockAccumulator

/-! ### A segment -/

namespace SplMeter

theorem overload_cons (run : ℕ) (x : ℚ) (xs : List ℚ) :
    overload run (x :: xs) = ((overload (nextRun run x) xs).1,
      decide (kOverloadRunLength ≤ nextRun run x) || (overload (nextRun run x) xs).2) := by
  rw [overload, nextRun]
  split
  · rw [Bool.or_comm]
  · rfl

end SplMeter

namespace MeterCore

variable [WeightingFilter Filter]

section

variable (s : MeterCore Filter)

@[simp] theorem run_nil : s.run [] = s := rfl

@[simp] theorem run_cons (x : ℚ) (xs : List ℚ) :
    s.run (x :: xs) = (s.sample x).run xs := rfl

theorem run_append (xs ys : List ℚ) :
    s.run (xs ++ ys) = (s.run xs).run ys :=
  List.foldl_append

@[simp] theorem blocksOf_cons (x : ℚ) (xs : List ℚ) :
    s.blocksOf (x :: xs) = s.blockOf x ++ (s.sample x).blocksOf xs := rfl

@[simp] theorem ticksOf_cons (x : ℚ) (xs : List ℚ) :
    s.ticksOf (x :: xs) = s.tickOf x ++ (s.sample x).ticksOf xs := rfl

theorem blocksOf_append (xs ys : List ℚ) :
    s.blocksOf (xs ++ ys) = s.blocksOf xs ++ (s.run xs).blocksOf ys :=
  Transducer.emitted_append s xs ys

theorem ticksOf_append (xs ys : List ℚ) :
    s.ticksOf (xs ++ ys) = s.ticksOf xs ++ (s.run xs).ticksOf ys :=
  Transducer.emitted_append s xs ys

theorem run_frame (xs : List ℚ) :
    (s.run xs).mainWeighting = (SplMeter.weigh s.mainWeighting xs).1 ∧
      (s.run xs).peakWeighting = (SplMeter.weigh s.peakWeighting xs).1 ∧
      (s.run xs).overloadRun = (SplMeter.overload s.overloadRun xs).1 ∧
      (s.run xs).lnSamplesPerTick = s.lnSamplesPerTick := by
  induction xs generalizing s with
  | nil => exact ⟨rfl, rfl, rfl, rfl⟩
  | cons x xs ih =>
    rw [run_cons, SplMeter.overload_cons]
    exact ih (s.sample x)

/-- Within a block: the accumulator takes the filtered streams, with the flag raised if the overload
run gets long enough anywhere among them. -/
theorem run_pushSamples (xs : List ℚ) (hready : s.accumulator.ready = [])
    (hroom : s.accumulator.pending + xs.length ≤ s.accumulator.blockSamples) :
    (s.run xs).accumulator = { ((s.accumulator.flagged
        (SplMeter.overload s.overloadRun xs).2).pushSamples (WeightingFilter.math Filter)
        ((SplMeter.weigh s.mainWeighting xs).2.zip (SplMeter.weigh s.peakWeighting xs).2)).1 with
        ready := [] } ∧
      s.blocksOf xs = ((s.accumulator.flagged
        (SplMeter.overload s.overloadRun xs).2).pushSamples (WeightingFilter.math Filter)
        ((SplMeter.weigh s.mainWeighting xs).2.zip (SplMeter.weigh s.peakWeighting xs).2)).1.ready := by
  induction xs generalizing s with
  | nil => exact ⟨(BlockAccumulator.with_ready_nil hready).symm, hready.symm⟩
  | cons x xs ih =>
    rw [List.length_cons] at hroom
    rw [run_cons, blocksOf_cons, SplMeter.overload_cons, SplMeter.weigh, SplMeter.weigh]
    dsimp only
    rw [List.zip_cons_cons, BlockAccumulator.pushSamples_cons _
      ((BlockAccumulator.flagged_ready _ _).trans hready)]
    dsimp only
    by_cases hopen : s.accumulator.pending + 1 < s.accumulator.blockSamples
    · -- the block stays open, and the flag can wait for the samples after this one
      have hopen' := (s.accumulator.flagged_open
        (decide (SplMeter.kOverloadRunLength ≤ nextRun s.overloadRun x))).mpr hopen
      obtain ⟨hbs, hp, -, -, hr⟩ := BlockAccumulator.sample_of_open (WeightingFilter.math Filter) hopen'
        (WeightingFilter.process s.mainWeighting x).2 (WeightingFilter.process s.peakWeighting x).2
      rw [BlockAccumulator.flagged_blockSamples] at hbs
      rw [BlockAccumulator.flagged_pending] at hp
      rw [BlockAccumulator.flagged_ready, hready] at hr
      have hnext : (s.sample x).accumulator = s.accumulate x :=
        BlockAccumulator.with_ready_nil hr
      obtain ⟨hacc, hblocks⟩ := ih (s.sample x) (hnext ▸ hr) (by
        rw [hnext]
        show (s.accumulate x).pending + xs.length ≤ (s.accumulate x).blockSamples
        rw [accumulate, hp, hbs]
        omega)
      have hblock : s.blockOf x = [] := hr
      rw [hacc, hblocks, hblock, hnext, ← BlockAccumulator.flagged_flagged,
        BlockAccumulator.flagged_sample _ hopen']
      exact ⟨rfl, rfl⟩
    · -- the block closes, and was the end of the samples
      have hlt := s.accumulator.pending_lt
      obtain rfl : xs = [] := List.eq_nil_of_length_eq_zero (by omega)
      have hrest : (SplMeter.overload (nextRun s.overloadRun x) []).2 = false := rfl
      rw [hrest, Bool.or_false]
      exact ⟨rfl, List.append_nil _⟩

end

end MeterCore

namespace SplMeter

theorem drain_of_room (m : SplMeter Filter) (blocks : List Block)
    (hroom : m.readyBuffer.length + blocks.length ≤ kScratchSamples) :
    drain m blocks = { m with readyBuffer := m.readyBuffer ++ blocks } := by
  induction blocks generalizing m with
  | nil => rw [drain, List.append_nil]
  | cons b blocks ih =>
    rw [List.length_cons] at hroom
    rw [drain, if_pos (by omega), ih]
    · rw [List.append_assoc]
      rfl
    · rw [List.length_append, List.length_singleton]
      omega

variable [WeightingFilter Filter]

/-- The percentile feed takes a segment as its samples one by one. -/
theorem foldl_lnSample (m : SplMeter Filter) (s : MeterCore Filter) (xs : List ℚ)
    (hdetector : m.lnDetector = s.lnDetector) (hcounter : m.lnSampleCounter = s.lnSampleCounter)
    (hperTick : m.lnSamplesPerTick = s.lnSamplesPerTick)
    (hroom : m.lnTicks.length + (s.ticksOf xs).length ≤ m.lnTickCapacity) :
    ((weigh s.mainWeighting xs).2.foldl lnSample m).lnDetector = (s.run xs).lnDetector ∧
      ((weigh s.mainWeighting xs).2.foldl lnSample m).lnSampleCounter =
        (s.run xs).lnSampleCounter ∧
      ((weigh s.mainWeighting xs).2.foldl lnSample m).lnSamplesPerTick = m.lnSamplesPerTick ∧
      ((weigh s.mainWeighting xs).2.foldl lnSample m).lnTicks = m.lnTicks ++ s.ticksOf xs ∧
      ((weigh s.mainWeighting xs).2.foldl lnSample m).lnTickCapacity = m.lnTickCapacity := by
  induction xs generalizing m s with
  | nil => exact ⟨hdetector, hcounter, rfl, (List.append_nil _).symm, rfl⟩
  | cons x xs ih =>
    rw [MeterCore.ticksOf_cons, List.length_append] at hroom
    rw [weigh, MeterCore.run_cons, MeterCore.ticksOf_cons]
    dsimp only
    rw [List.foldl_cons]
    obtain ⟨m', hm'⟩ : ∃ m', m' = m.lnSample (WeightingFilter.process s.mainWeighting x).2 :=
      ⟨_, rfl⟩
    rw [← hm']
    suffices hone : m'.lnDetector = s.detect x ∧ m'.lnSampleCounter = s.lnSampleCounter + 1 ∧
        m'.lnSamplesPerTick = m.lnSamplesPerTick ∧ m'.lnTicks = m.lnTicks ++ s.tickOf x ∧
        m'.lnTickCapacity = m.lnTickCapacity by
      obtain ⟨h1, h2, h3, h4, h5⟩ := hone
      have hroom' : m'.lnTicks.length + ((s.sample x).ticksOf xs).length ≤ m'.lnTickCapacity := by
        rw [h4, h5, List.length_append]
        omega
      obtain ⟨i1, i2, i3, i4, i5⟩ := ih m' (s.sample x) h1 h2 (h3.trans hperTick) hroom'
      refine ⟨i1, i2, i3.trans h3, ?_, i5.trans h5⟩
      rw [← List.append_assoc, ← h4]
      exact i4
    rw [hm', lnSample, MeterCore.tickOf]
    dsimp only
    have hdetect : m.lnDetector.processSample (WeightingFilter.process s.mainWeighting x).2 =
        s.detect x := by
      rw [hdetector]
      rfl
    rw [hcounter, hperTick, hdetect]
    split
    · rename_i htick
      rw [MeterCore.tickOf, if_pos htick, List.length_singleton] at hroom
      rw [if_pos (by omega)]
      exact ⟨rfl, rfl, rfl, rfl, rfl⟩
    · exact ⟨rfl, rfl, rfl, (List.append_nil _).symm, rfl⟩

/-- What becomes of a meter that took some samples: what it carries and what it has ready. -/
structure CoreAfter (m m' : SplMeter Filter) (xs : List ℚ) : Prop where
  core : m'.core = m.core.run xs
  ready : m'.accumulator.ready = []
  blocks : m'.readyBuffer = m.readyBuffer ++ m.core.blocksOf xs
  ticks : m'.lnTicks = m.lnTicks ++ m.core.ticksOf xs
  capacity : m'.lnTickCapacity = m.lnTickCapacity

theorem CoreAfter.trans {m m' m'' : SplMeter Filter} {xs ys : List ℚ} (h : CoreAfter m m' xs)
    (h' : CoreAfter m' m'' ys) : CoreAfter m m'' (xs ++ ys) where
  core := by rw [h'.core, h.core, MeterCore.run_append]
  ready := h'.ready
  blocks := by rw [h'.blocks, h.blocks, h.core, MeterCore.blocksOf_append, List.append_assoc]
  ticks := by rw [h'.ticks, h.ticks, h.core, MeterCore.ticksOf_append, List.append_assoc]
  capacity := h'.capacity.trans h.capacity

theorem pushSegment_core {m : SplMeter Filter} (segment : List ℚ)
    (hready : m.accumulator.ready = [])
    (hroom : m.accumulator.pending + segment.length ≤ m.accumulator.blockSamples)
    (hblocks : m.readyBuffer.length + (m.core.blocksOf segment).length ≤ kScratchSamples)
    (hticks : m.lnTicks.length + (m.core.ticksOf segment).length ≤ m.lnTickCapacity) :
    CoreAfter m (m.pushSegment segment).1 segment := by
  have hlen : (weigh m.mainWeighting segment).2.length =
      (weigh m.peakWeighting segment).2.length := by rw [length_weigh, length_weigh]
  obtain ⟨hmain, hpeak, hrun, hperTick⟩ := m.core.run_frame segment
  obtain ⟨hdetector, hcounter, hperTick', hlnTicks, hcapacity⟩ :=
    foldl_lnSample m m.core segment rfl rfl rfl hticks
  have hacc := core_accumulator hready
  obtain ⟨hrunAcc, hrunBlocks⟩ := m.core.run_pushSamples segment rfl (by rwa [hacc])
  rw [hacc] at hrunAcc hrunBlocks
  have hpush : ∀ acc : BlockAccumulator,
      acc.push (WeightingFilter.math Filter) (weigh m.mainWeighting segment).2
        (weigh m.peakWeighting segment).2 =
      acc.pushSamples (WeightingFilter.math Filter)
        ((weigh m.mainWeighting segment).2.zip (weigh m.peakWeighting segment).2) :=
    fun acc => if_neg (not_not.mpr hlen)
  -- the flag was raised for the whole segment, which is in one block
  have hflag : (if (overload m.overloadRun segment).2 then m.accumulator.setFlag overloadFlag
      else m.accumulator) = m.accumulator.flagged (overload m.overloadRun segment).2 := rfl
  rw [pushSegment]
  dsimp only
  rw [hpush, hflag]
  simp only [core_mainWeighting, core_peakWeighting, core_overloadRun, core_lnSamplesPerTick] at *
  rw [drain_of_room _ _ (by rwa [← hrunBlocks]), ← hrunBlocks]
  refine ⟨?_, rfl, rfl, hlnTicks, hcapacity⟩
  exact MeterCore.ext hmain.symm hpeak.symm hrunAcc.symm hrun.symm hdetector hcounter
    (hperTick'.trans hperTick.symm)

end SplMeter

/-! ### How much becomes ready -/

namespace MeterCore

variable [WeightingFilter Filter]

section

variable (s : MeterCore Filter) (x : ℚ)

@[simp] theorem sample_blockSamples :
    (s.sample x).accumulator.blockSamples = (s.accumulate x).blockSamples := by
  rw [sample]

@[simp] theorem sample_pending :
    (s.sample x).accumulator.pending = (s.accumulate x).pending := by
  rw [sample]

@[simp] theorem sample_nextIndex :
    (s.sample x).accumulator.nextIndex = (s.accumulate x).nextIndex := by
  rw [sample]

@[simp] theorem sample_flags :
    (s.sample x).accumulator.flags = (s.accumulate x).flags := by
  rw [sample]

end

theorem sample_clock {s : MeterCore Filter} (hready : s.accumulator.ready = []) (x : ℚ) :
    (s.sample x).accumulator.blockSamples = s.accumulator.blockSamples ∧
      (s.sample x).accumulator.pending =
        (s.accumulator.pending + 1) % s.accumulator.blockSamples ∧
      (s.blockOf x).length = SplMeter.blocksIn s.accumulator.blockSamples s.accumulator.pending 1 := by
  have hlt := s.accumulator.pending_lt
  have hr : (s.accumulator.flagged (decide
      (SplMeter.kOverloadRunLength ≤ nextRun s.overloadRun x))).ready = [] := by
    rw [BlockAccumulator.flagged_ready, hready]
  have h := BlockAccumulator.pushSamples_of_room (WeightingFilter.math Filter) _
    [((WeightingFilter.process s.mainWeighting x).2, (WeightingFilter.process s.peakWeighting x).2)]
    hr (by
      rw [BlockAccumulator.flagged_pending, BlockAccumulator.flagged_blockSamples]
      exact hlt)
  have hone : BlockAccumulator.pushSamples (WeightingFilter.math Filter)
      (s.accumulator.flagged (decide (SplMeter.kOverloadRunLength ≤ nextRun s.overloadRun x)))
      [((WeightingFilter.process s.mainWeighting x).2,
        (WeightingFilter.process s.peakWeighting x).2)] = (s.accumulate x, 1) := by
    rw [BlockAccumulator.pushSamples_cons _ hr, BlockAccumulator.pushSamples, accumulate]
  rw [hone, BlockAccumulator.flagged_pending, BlockAccumulator.flagged_blockSamples] at h
  rw [sample_blockSamples, sample_pending, blockOf]
  exact h.2

theorem run_clock {s : MeterCore Filter} (hready : s.accumulator.ready = []) (xs : List ℚ) :
    (s.run xs).accumulator.blockSamples = s.accumulator.blockSamples ∧
      (s.run xs).accumulator.pending =
        (s.accumulator.pending + xs.length) % s.accumulator.blockSamples ∧
      (s.blocksOf xs).length =
        SplMeter.blocksIn s.accumulator.blockSamples s.accumulator.pending xs.length := by
  induction xs generalizing s with
  | nil =>
    have hlt := s.accumulator.pending_lt
    exact ⟨rfl, (Nat.mod_eq_of_lt hlt).symm, (Nat.div_eq_of_lt hlt).symm⟩
  | cons x xs ih =>
    have hb : 0 < s.accumulator.blockSamples := s.accumulator.pending.zero_le.trans_lt
      s.accumulator.pending_lt
    obtain ⟨hbs, hp, hlen⟩ := sample_clock hready x
    obtain ⟨hbs', hp', hlen'⟩ := ih (s := s.sample x) rfl
    rw [hbs, hp] at hp' hlen'
    rw [run_cons, blocksOf_cons, List.length_append, hlen, hlen', List.length_cons,
      Nat.add_comm xs.length 1, SplMeter.blocksIn_add hb]
    refine ⟨hbs'.trans hbs, ?_, rfl⟩
    rw [hp', Nat.mod_add_mod, Nat.add_assoc]

theorem run_ticks (s : MeterCore Filter) (xs : List ℚ) :
    (s.run xs).lnSampleCounter = s.lnSampleCounter + xs.length ∧
      s.lnSampleCounter / s.lnSamplesPerTick + (s.ticksOf xs).length =
        (s.lnSampleCounter + xs.length) / s.lnSamplesPerTick := by
  induction xs generalizing s with
  | nil => exact ⟨rfl, rfl⟩
  | cons x xs ih =>
    obtain ⟨hcounter, hticks⟩ := ih (s.sample x)
    have hadd : s.lnSampleCounter + 1 + xs.length = s.lnSampleCounter + (xs.length + 1) := by omega
    have hone : s.lnSampleCounter / s.lnSamplesPerTick + (s.tickOf x).length =
        (s.lnSampleCounter + 1) / s.lnSamplesPerTick := by
      rw [Nat.succ_div, tickOf]
      by_cases htick : (s.lnSampleCounter + 1) % s.lnSamplesPerTick = 0
      · rw [if_pos htick, if_pos (Nat.dvd_of_mod_eq_zero htick)]
        rfl
      · rw [if_neg htick, if_neg fun hdvd => htick (Nat.mod_eq_zero_of_dvd hdvd)]
        rfl
    have hticks' : (s.lnSampleCounter + 1) / s.lnSamplesPerTick + ((s.sample x).ticksOf xs).length =
        (s.lnSampleCounter + 1 + xs.length) / s.lnSamplesPerTick := hticks
    rw [run_cons, ticksOf_cons, List.length_append, List.length_cons, ← hadd, ← hticks', ← hone]
    exact ⟨hcounter, (Nat.add_assoc _ _ _).symm⟩

end MeterCore

namespace SplMeter

variable [WeightingFilter Filter]

theorem pushFrom_core (fuel : ℕ) (m : SplMeter Filter) (hop : List ℚ)
    (hready : m.accumulator.ready = [])
    (hblocks : m.readyBuffer.length + (m.core.blocksOf hop).length ≤ kScratchSamples)
    (hticks : m.lnTicks.length + (m.core.ticksOf hop).length ≤ m.lnTickCapacity)
    (hfuel : hop.length ≤ fuel) : CoreAfter m (pushFrom fuel m hop) hop := by
  refine pushFrom_induction (motive := fun m hop t =>
      m.readyBuffer.length + (m.core.blocksOf hop).length ≤ kScratchSamples →
      m.lnTicks.length + (m.core.ticksOf hop).length ≤ m.lnTickCapacity → CoreAfter m t hop)
    ?_ ?_ fuel m hop hready (by omega) hfuel hblocks hticks
  · intro m hready _ _ _
    exact ⟨rfl, hready, (List.append_nil _).symm, (List.append_nil _).symm, rfl⟩
  · intro m t segment rest hready _ hroom hrest hblocks hticks
    rw [MeterCore.blocksOf_append, List.length_append] at hblocks
    rw [MeterCore.ticksOf_append, List.length_append] at hticks
    have hseg := pushSegment_core segment hready hroom (by omega) (by omega)
    exact hseg.trans (hrest (by rw [hseg.blocks, hseg.core, List.length_append]; omega)
      (by rw [hseg.ticks, hseg.core, hseg.capacity, List.length_append]; omega))

/-- A call is small enough: the blocks it closes fit the buffer when that is empty, and the levels
it ticks fit the capacity they were given. -/
def CallFits (m : SplMeter Filter) (hop : List ℚ) : Prop :=
  blocksIn m.accumulator.blockSamples m.accumulator.pending hop.length ≤ kScratchSamples ∧
    (m.lnSampleCounter + hop.length) / m.lnSamplesPerTick - m.lnSampleCounter / m.lnSamplesPerTick ≤
      m.lnTickCapacity

instance (m : SplMeter Filter) (hop : List ℚ) : Decidable (CallFits m hop) :=
  inferInstanceAs (Decidable (_ ∧ _))

/-- A meter that was polled until nothing was left shows the run of its core. -/
structure Shows (m : SplMeter Filter) (s : MeterCore Filter) : Prop where
  core : m.core = s
  ready : m.accumulator.ready = []
  readyBuffer : m.readyBuffer = []

/-- **A call does what its samples do**: it closes their blocks, ticks their levels, and leaves what
they leave. -/
theorem push_shows {m : SplMeter Filter} {s : MeterCore Filter} (h : Shows m s) {hop : List ℚ}
    (hfits : CallFits m hop) :
    Shows (m.push hop).pollAll.2 (s.run hop) ∧ (m.push hop).pollAll.1 = s.blocksOf hop ∧
      (m.push hop).lnTicks = s.ticksOf hop := by
  obtain ⟨rfl, hready, hbuffer⟩ := h
  have hacc := core_accumulator hready
  obtain ⟨-, -, hlen⟩ := MeterCore.run_clock (s := m.core) rfl hop
  obtain ⟨-, hticks⟩ := m.core.run_ticks hop
  have hpush : CoreAfter { m with lnTicks := [] } (m.push hop) hop :=
    pushFrom_core hop.length { m with lnTicks := [] } hop hready
      (by
        show m.readyBuffer.length + (m.core.blocksOf hop).length ≤ kScratchSamples
        rw [hbuffer, hlen, hacc, List.length_nil, Nat.zero_add]
        exact hfits.1)
      (by
        show 0 + (m.core.ticksOf hop).length ≤ m.lnTickCapacity
        have hroom : (m.core.lnSampleCounter + hop.length) / m.core.lnSamplesPerTick -
          m.core.lnSampleCounter / m.core.lnSamplesPerTick ≤ m.lnTickCapacity := hfits.2
        omega)
      le_rfl
  refine ⟨⟨?_, rfl, rfl⟩, ?_, hpush.ticks⟩
  · exact hpush.core
  · rw [pollAll, hpush.ready, hpush.blocks, List.append_nil]
    show m.readyBuffer ++ _ = _
    rw [hbuffer]
    rfl

end SplMeter

/-! ### The overload flag -/

/-- A sample of the stream is at full scale. -/
def FullAt (xs : List ℚ) (i : ℕ) : Prop :=
  ∃ x, xs[i]? = some x ∧ SplMeter.kFullScaleThreshold ≤ |x|

/-- A sample of the stream is the third or a later one of a run at full scale, wherever that
started. -/
def LongRunAt (xs : List ℚ) (i : ℕ) : Prop :=
  ∃ start, start + 2 ≤ i ∧ ∀ j, start ≤ j → j ≤ i → FullAt xs j

variable {xs : List ℚ}

theorem fullAt_concat_of_lt {i : ℕ} (x : ℚ) (hi : i < xs.length) :
    FullAt (xs ++ [x]) i ↔ FullAt xs i := by
  rw [FullAt, FullAt, List.getElem?_append_left hi]

theorem fullAt_concat_length (xs : List ℚ) (x : ℚ) :
    FullAt (xs ++ [x]) xs.length ↔ SplMeter.kFullScaleThreshold ≤ |x| := by
  rw [FullAt, List.getElem?_concat_length]
  simp

theorem longRunAt_concat_of_lt {i : ℕ} (x : ℚ) (hi : i < xs.length) :
    LongRunAt (xs ++ [x]) i ↔ LongRunAt xs i := by
  refine exists_congr fun start => and_congr_right fun _ => ?_
  refine forall_congr' fun j => imp_congr_right fun _ => ?_
  exact forall_congr' fun hj => fullAt_concat_of_lt x (hj.trans_lt hi)

/-- The run a stream ends with has length `r`. -/
structure EndsWithRun (xs : List ℚ) (r : ℕ) : Prop where
  le : r ≤ xs.length
  full : ∀ j, xs.length - r ≤ j → j < xs.length → FullAt xs j
  maximal : r < xs.length → ¬ FullAt xs (xs.length - 1 - r)

theorem endsWithRun_nil : EndsWithRun [] 0 :=
  ⟨le_rfl, fun _ _ h => absurd h (Nat.not_lt_zero _), fun h => absurd h (Nat.not_lt_zero _)⟩

/-- The counter of the meter is the length of that run. -/
theorem EndsWithRun.concat {r : ℕ} (h : EndsWithRun xs r) (x : ℚ) :
    EndsWithRun (xs ++ [x]) (nextRun r x) := by
  have hlen : (xs ++ [x]).length = xs.length + 1 := List.length_append
  have hle := h.le
  rw [nextRun]
  split
  · rename_i hfull
    refine ⟨by omega, fun j hj hlt => ?_, fun hlt => ?_⟩
    · rcases Nat.lt_or_ge j xs.length with hold | hnew
      · exact (fullAt_concat_of_lt x hold).mpr (h.full j (by omega) hold)
      · obtain rfl : j = xs.length := by omega
        exact (fullAt_concat_length xs x).mpr hfull
    · have hback : (xs ++ [x]).length - 1 - (r + 1) = xs.length - 1 - r := by omega
      rw [hback, fullAt_concat_of_lt x (by omega)]
      exact h.maximal (by omega)
  · rename_i hquiet
    refine ⟨Nat.zero_le _, fun j hj hlt => absurd hlt (by omega), fun _ => ?_⟩
    have hback : (xs ++ [x]).length - 1 - 0 = xs.length := by omega
    rw [hback, fullAt_concat_length]
    exact hquiet

/-- The counter is long enough exactly at the third and the later samples of a run. -/
theorem EndsWithRun.long_iff {r n : ℕ} (h : EndsWithRun xs r)
    (hlen : xs.length = n + 1) : SplMeter.kOverloadRunLength ≤ r ↔ LongRunAt xs n := by
  have hle := h.le
  constructor
  · intro hlong
    have hthree : 3 ≤ r := hlong
    refine ⟨xs.length - r, by omega, fun j hj hjn => h.full j hj (by omega)⟩
  · rintro ⟨start, hstart, hall⟩
    by_contra hshort
    have hthree : r < 3 := Nat.lt_of_not_le hshort
    exact h.maximal (by omega) (hall _ (by omega) (by omega))

/-- The overload flag is among these. -/
def Overloaded (flags : UInt32) : Prop := flags &&& overloadFlag ≠ 0

theorem overloaded_or (flags : UInt32) : Overloaded (flags ||| overloadFlag) := by
  intro h
  have hbit := congrArg (fun x : UInt32 => x.toBitVec[0]) h
  simp [overloadFlag] at hbit

theorem not_overloaded_zero : ¬ Overloaded 0 := not_not.mpr rfl

theorem overloaded_flagged (acc : BlockAccumulator) (due : Bool) :
    Overloaded (acc.flagged due).flags ↔ Overloaded acc.flags ∨ due = true := by
  cases due with
  | false => simp
  | true => exact iff_of_true (overloaded_or _) (.inr rfl)

namespace MeterCore

variable [WeightingFilter Filter]

theorem sample_of_open {s : MeterCore Filter} (hready : s.accumulator.ready = [])
    (hopen : s.accumulator.pending + 1 < s.accumulator.blockSamples) (x : ℚ) :
    (s.sample x).accumulator.nextIndex = s.accumulator.nextIndex ∧ s.blockOf x = [] ∧
      (Overloaded (s.sample x).accumulator.flags ↔ Overloaded s.accumulator.flags ∨
        SplMeter.kOverloadRunLength ≤ nextRun s.overloadRun x) := by
  have hopen' := (s.accumulator.flagged_open
    (decide (SplMeter.kOverloadRunLength ≤ nextRun s.overloadRun x))).mpr hopen
  obtain ⟨-, -, hindex, hflags, hsame⟩ := BlockAccumulator.sample_of_open
    (WeightingFilter.math Filter) hopen' (WeightingFilter.process s.mainWeighting x).2
    (WeightingFilter.process s.peakWeighting x).2
  rw [BlockAccumulator.flagged_nextIndex] at hindex
  rw [BlockAccumulator.flagged_ready, hready] at hsame
  rw [sample_nextIndex, sample_flags, blockOf, accumulate, hflags, overloaded_flagged,
    decide_eq_true_iff]
  exact ⟨hindex, hsame, Iff.rfl⟩

theorem sample_of_full {s : MeterCore Filter} (hready : s.accumulator.ready = [])
    (hfull : ¬ s.accumulator.pending + 1 < s.accumulator.blockSamples) (x : ℚ) :
    (s.sample x).accumulator.nextIndex = s.accumulator.nextIndex + 1 ∧
      (s.sample x).accumulator.flags = 0 ∧
      ∃ block, s.blockOf x = [block] ∧ block.blockIndex = s.accumulator.nextIndex ∧
        (Overloaded block.flags ↔ Overloaded s.accumulator.flags ∨
          SplMeter.kOverloadRunLength ≤ nextRun s.overloadRun x) := by
  have hfull' := mt (s.accumulator.flagged_open
    (decide (SplMeter.kOverloadRunLength ≤ nextRun s.overloadRun x))).mp hfull
  obtain ⟨hflags, hindex, block, hclosed, hnumber, hblock⟩ := BlockAccumulator.sample_of_full
    (WeightingFilter.math Filter) hfull' (WeightingFilter.process s.mainWeighting x).2
    (WeightingFilter.process s.peakWeighting x).2
  rw [BlockAccumulator.flagged_nextIndex] at hindex hnumber
  rw [BlockAccumulator.flagged_ready, hready, List.nil_append] at hclosed
  have hdue : Overloaded block.flags ↔ Overloaded s.accumulator.flags ∨
      SplMeter.kOverloadRunLength ≤ nextRun s.overloadRun x := by
    rw [hblock, overloaded_flagged, decide_eq_true_iff]
  rw [sample_nextIndex, sample_flags, blockOf, accumulate]
  exact ⟨hindex, hflags, block, hclosed, hnumber, hdue⟩

end MeterCore

/-- A long run includes a sample among those from `lo` up to `hi`. -/
def LongRunIn (xs : List ℚ) (lo hi : ℕ) : Prop := ∃ i, lo ≤ i ∧ i < hi ∧ LongRunAt xs i

theorem longRunIn_concat_of_le {xs : List ℚ} {lo hi : ℕ} (x : ℚ) (hhi : hi ≤ xs.length) :
    LongRunIn (xs ++ [x]) lo hi ↔ LongRunIn xs lo hi := by
  refine exists_congr fun i => and_congr_right fun _ => and_congr_right fun hi' => ?_
  exact longRunAt_concat_of_lt x (hi'.trans_le hhi)

theorem longRunIn_concat {xs : List ℚ} {lo : ℕ} (x : ℚ) (hlo : lo ≤ xs.length) :
    LongRunIn (xs ++ [x]) lo (xs.length + 1) ↔
      LongRunIn xs lo xs.length ∨ LongRunAt (xs ++ [x]) xs.length := by
  rw [← longRunIn_concat_of_le x le_rfl]
  constructor
  · rintro ⟨i, hi, hlt, hlong⟩
    rcases Nat.lt_or_ge i xs.length with hold | hnew
    · exact .inl ⟨i, hi, hold, hlong⟩
    · obtain rfl : i = xs.length := by omega
      exact .inr hlong
  · rintro (⟨i, hi, hlt, hlong⟩ | hlong)
    · exact ⟨i, hi, hlt.trans (Nat.lt_succ_self _), hlong⟩
    · exact ⟨xs.length, hlo, Nat.lt_succ_self _, hlong⟩

/-- Where a stream has got to in blocks of `b`: the open block and the closed ones have their
numbers, and the flag where a long run includes one of their samples. -/
structure FlagInv (b : ℕ) (xs : List ℚ) (s : MeterCore Filter) (blocks : List Block) : Prop where
  ready : s.accumulator.ready = []
  blockSamples : s.accumulator.blockSamples = b
  pending : s.accumulator.pending = xs.length % b
  nextIndex : s.accumulator.nextIndex = xs.length / b
  run : EndsWithRun xs s.overloadRun
  flags : Overloaded s.accumulator.flags ↔ LongRunIn xs (xs.length / b * b) xs.length
  length : blocks.length = xs.length / b
  blocks : ∀ k block, blocks[k]? = some block →
    block.blockIndex = k ∧ (Overloaded block.flags ↔ LongRunIn xs (k * b) ((k + 1) * b))

namespace FlagInv

variable [WeightingFilter Filter] {b : ℕ} {xs : List ℚ} {s : MeterCore Filter} {blocks : List Block}

section

variable (h : FlagInv b xs s blocks) (x : ℚ)

include h

/-- What the block that a sample goes into is flagged for. -/
theorem due :
    (Overloaded s.accumulator.flags ∨ SplMeter.kOverloadRunLength ≤ nextRun s.overloadRun x) ↔
      LongRunIn (xs ++ [x]) (xs.length / b * b) (xs.length + 1) := by
  rw [longRunIn_concat x (Nat.div_mul_le_self _ _), h.flags,
    (h.run.concat x).long_iff List.length_append]

theorem closed {k : ℕ} {block : Block} (hk : blocks[k]? = some block) : block.blockIndex = k ∧
      (Overloaded block.flags ↔ LongRunIn (xs ++ [x]) (k * b) ((k + 1) * b)) := by
  have hlt : k < xs.length / b := h.length ▸ (List.getElem?_eq_some_iff.mp hk).1
  have hend : (k + 1) * b ≤ xs.length / b * b := Nat.mul_le_mul_right b hlt
  rw [longRunIn_concat_of_le x (hend.trans (Nat.div_mul_le_self _ _))]
  exact h.blocks k block hk

theorem sample :
    FlagInv b (xs ++ [x]) (s.sample x) (blocks ++ s.blockOf x) := by
  have hlen : (xs ++ [x]).length = xs.length + 1 := List.length_append
  have hb : 0 < b :=
    h.blockSamples ▸ s.accumulator.pending.zero_le.trans_lt s.accumulator.pending_lt
  have hdiv := Nat.div_add_mod' xs.length b
  have hmod := Nat.mod_lt xs.length hb
  obtain ⟨hbs, hpending, -⟩ := MeterCore.sample_clock h.ready x
  have hpending' : (s.sample x).accumulator.pending = (xs ++ [x]).length % b := by
    rw [hpending, h.pending, h.blockSamples, Nat.mod_add_mod, hlen]
  by_cases hopen : xs.length % b + 1 < b
  · obtain ⟨hindex, hnone, hflags⟩ := MeterCore.sample_of_open h.ready
      (by rwa [h.pending, h.blockSamples]) x
    have hsame : (xs ++ [x]).length / b = xs.length / b := by
      rw [hlen]
      exact Nat.div_eq_of_lt_le (by omega) (by rw [Nat.add_mul]; omega)
    rw [hnone, List.append_nil]
    refine ⟨rfl, hbs.trans h.blockSamples, hpending', ?_, h.run.concat x, ?_, ?_,
      fun k block hk => h.closed x hk⟩
    · rw [hsame, hindex, h.nextIndex]
    · rw [hsame, hflags, hlen, h.due x]
    · rw [hsame, h.length]
  · obtain ⟨hindex, hflags, block, hone, hnumber, hblock⟩ := MeterCore.sample_of_full h.ready
      (by rwa [h.pending, h.blockSamples]) x
    have hend : xs.length + 1 = (xs.length / b + 1) * b := by
      rw [Nat.add_mul]
      omega
    have hnext : (xs ++ [x]).length / b = xs.length / b + 1 := by
      rw [hlen, hend, Nat.mul_div_cancel _ hb]
    rw [hone]
    refine ⟨rfl, hbs.trans h.blockSamples, hpending', ?_, h.run.concat x, ?_, ?_,
      fun k block' hk => ?_⟩
    · rw [hnext, hindex, h.nextIndex]
    · rw [hnext, hlen, ← hend, hflags]
      refine iff_of_false not_overloaded_zero ?_
      rintro ⟨i, hle, hlt, -⟩
      exact absurd hlt (Nat.not_lt.mpr hle)
    · rw [List.length_append, List.length_singleton, h.length, hnext]
    · rcases Nat.lt_or_ge k blocks.length with hlt | hge
      · rw [List.getElem?_append_left hlt] at hk
        exact h.closed x hk
      · rw [List.getElem?_append_right hge, List.getElem?_singleton] at hk
        split at hk
        · cases hk
          have hlength := h.length
          obtain rfl : k = xs.length / b := by omega
          rw [hnumber, h.nextIndex, ← hend]
          exact ⟨rfl, hblock.trans (h.due x)⟩
        · cases hk

end

end FlagInv

theorem FlagInv.make [WeightingFilter Filter] (config : SplConfig) (weighting : WeightingType)
    (sampleRate : ℚ) :
    FlagInv (SplMeter.make config weighting sampleRate : SplMeter Filter).accumulator.blockSamples
      [] (SplMeter.make config weighting sampleRate : SplMeter Filter).core [] where
  ready := rfl
  blockSamples := rfl
  pending := rfl
  nextIndex := (Nat.zero_div _).symm
  run := endsWithRun_nil
  flags := by
    refine iff_of_false not_overloaded_zero ?_
    rintro ⟨i, -, hlt, -⟩
    exact absurd hlt (Nat.not_lt_zero i)
  length := (Nat.zero_div _).symm
  blocks := by
    rintro k block ⟨⟩

theorem FlagInv.samples [WeightingFilter Filter] {b : ℕ} {s : MeterCore Filter}
    (h : FlagInv b [] s []) (xs : List ℚ) : FlagInv b xs (s.run xs) (s.blocksOf xs) := by
  induction xs using List.reverseRecOn with
  | nil => exact h
  | append_singleton xs x ih =>
    rw [MeterCore.run_append, MeterCore.blocksOf, Transducer.emitted_concat]
    exact ih.sample x

/-! ### The output of a stream -/

namespace SplMeter

variable [WeightingFilter Filter]

/-- A call, and polling until nothing is left. -/
def feed (m : SplMeter Filter) (hop : List ℚ) : SplMeter Filter := (m.push hop).pollAll.2

/-- The blocks that are polled over some calls. -/
def polledBlocks (m : SplMeter Filter) (hops : List (List ℚ)) : List Block :=
  Transducer.emitted feed (fun m hop => (m.push hop).pollAll.1) m hops

/-- The levels that are read after each of some calls. -/
def readTicks (m : SplMeter Filter) (hops : List (List ℚ)) : List ℚ :=
  Transducer.emitted feed (fun m hop => (m.push hop).lnTicks) m hops

/-- Each call is small enough. -/
def CallsFit (m : SplMeter Filter) (hops : List (List ℚ)) : Prop :=
  Transducer.AllFit feed CallFits m hops

instance (m : SplMeter Filter) (hops : List (List ℚ)) : Decidable (CallsFit m hops) :=
  inferInstanceAs (Decidable (Transducer.AllFit _ _ _ _))

theorem outputs_eq {m : SplMeter Filter} {s : MeterCore Filter} (h : Shows m s)
    {hops : List (List ℚ)} (hfit : CallsFit m hops) :
    m.polledBlocks hops = s.blocksOf hops.flatten ∧ m.readTicks hops = s.ticksOf hops.flatten :=
  ⟨(Transducer.emitted_chunks Shows
      (fun _ _ _ hshows hfits =>
        ⟨(push_shows hshows hfits).1, (push_shows hshows hfits).2.1⟩) h hfit).2,
    (Transducer.emitted_chunks Shows
      (fun _ _ _ hshows hfits =>
        ⟨(push_shows hshows hfits).1, (push_shows hshows hfits).2.2⟩) h hfit).2⟩

theorem make_shows (config : SplConfig) (weighting : WeightingType) (sampleRate : ℚ) :
    Shows (make config weighting sampleRate : SplMeter Filter)
      (make config weighting sampleRate : SplMeter Filter).core :=
  ⟨rfl, rfl, rfl⟩

end SplMeter

/-- Three samples to a block, and to a tick. -/
def threeToABlock : SplConfig where
  blockSeconds := 1 / 10
  metrics := [{ id := bytes "Leq", weighting := .Z }]

end RtaTool
