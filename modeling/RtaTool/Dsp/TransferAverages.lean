import RtaTool.Dsp.DualFftFrames
import RtaTool.Dsp.RealFft
import RtaTool.Lib.RunningMean

/-!
# The averages of the dual FFT engine

What a frame pair does to the averages. Each of the three spectra has the spectra of the last
frames in slots that are used round and round, a running sum of them, and the mean that is read;
`accumulate` is written for one of the three and does the same to all. A reset leaves the slots as
they are and clears the rest.

The analysis of a frame reads nothing of the rings, and the rings nothing of the averages. So an
engine is the engine of the frames with the averages beside it, and a call analyses the frame pairs
that it took out of the rings, in their order.

## Main definitions

* `SpectrumAverage`, `SpectrumAverage.accumulate`, `SpectrumAverage.reset`
* `TransferEngine`, `TransferEngine.make`, `analyseFramePair`, `TransferEngine.run`
* `averageOf` -- the mean of a sequence that each mode stands for
* `SpectrumAverage.BinHolds` -- the invariant of a bin

## Main results

* `SpectrumAverage.BinHolds.accumulate`, `SpectrumAverage.BinHolds.reset`
-/

namespace RtaTool

namespace Dsp

variable {K V : Type}

/-! ### One spectrum -/

/-- `fifoSxx_`, `runningSumSxx_` and `sxxMean_`, or those of `Syy` or `Sxy`. -/
structure SpectrumAverage (V : Type) where
  fifo : ℕ → V
  runningSum : ℕ → V
  mean : ℕ → V

namespace SpectrumAverage

/-- As the constructor fills them. -/
def empty [Zero V] : SpectrumAverage V :=
  { fifo := fun _ => 0, runningSum := fun _ => 0, mean := fun _ => 0 }

/-- `reset()`: the slots are left stale on purpose. -/
def reset [Zero V] (a : SpectrumAverage V) : SpectrumAverage V :=
  { a with runningSum := fun _ => 0, mean := fun _ => 0 }

variable [Field K] [AddCommGroup V] [Module K V]

/-- The FIFO branch of `accumulate`. -/
def accumulateFifo (K : Type) {V : Type} [Field K] [AddCommGroup V] [Module K V]
    (depth numBins frameCount bin : ℕ) (x : V) (a : SpectrumAverage V) : SpectrumAverage V :=
  let slot := (frameCount - 1) % depth
  let kept :=
    if depth < frameCount then a.runningSum bin - a.fifo (slot * numBins + bin)
    else a.runningSum bin
  let sum := kept + x
  let count : K := (min frameCount depth : ℕ)
  { fifo := Function.update a.fifo (slot * numBins + bin) x
    runningSum := Function.update a.runningSum bin sum
    mean := Function.update a.mean bin (count⁻¹ • sum) }

/-- The exponential branch of `accumulate`. -/
def accumulateExponential (alpha : K) (frameCount bin : ℕ) (x : V) (a : SpectrumAverage V) :
    SpectrumAverage V :=
  { a with
    mean := Function.update a.mean bin
      (if frameCount = 1 then x else a.mean bin + alpha • (x - a.mean bin)) }

/-- `accumulate(bin, ...)`, for one of the three. -/
def accumulate (config : DualFftConfig) (alpha : K) (numBins frameCount bin : ℕ) (x : V)
    (a : SpectrumAverage V) : SpectrumAverage V :=
  if config.averaging = .fifo then accumulateFifo K config.fifoDepth numBins frameCount bin x a
  else accumulateExponential alpha frameCount bin x a

end SpectrumAverage

/-! ### The engine -/

/-- `PsdScaling::scale`. -/
def psdScale [Field K] (sampleRate windowSumSquares : K) : K := 2 / (sampleRate * windowSumSquares)

/-- `PsdScaling::binFactor`. -/
def binFactor [Field K] (bin numBins : ℕ) : K := if bin = 0 ∨ bin + 1 = numBins then 1 / 2 else 1

/-- `Window::sumSquares()`. -/
def sumSquares [Field K] (window : List K) : K := (window.map fun w => w * w).sum

/-- `Window::apply`. -/
def applyWindow [Field K] (window frame : List K) : List K := List.zipWith (· * ·) frame window

/-- What the constructor computes once: `window_`, `densityScale_` and `alpha_`. -/
structure TransferScales (K : Type) where
  window : List K
  densityScale : K
  alpha : K

/-- The rest of `DualFftEngine`. `streams` has the rings and the frame pairs they gave. -/
structure TransferEngine (K : Type) [Field K] where
  streams : DualFftEngine K
  scales : TransferScales K
  sxx : SpectrumAverage K := .empty
  syy : SpectrumAverage K := .empty
  sxy : SpectrumAverage (Cplx K) := .empty

/-- `fft_.numBins()`. -/
def numBins (config : DualFftConfig) : ℕ := config.fftSize / 2 + 1

variable [Field K]

/-- `alpha_`. -/
def smoothingAlpha (exp : K → K) (config : DualFftConfig) : K :=
  let hopSeconds : K := config.hopSize / config.sampleRate
  1 - exp (-hopSeconds / config.timeConstantSeconds)

/-- The constructor's part. The coefficients of the window are given. -/
def TransferScales.make (exp : K → K) (config : DualFftConfig) (window : List K) :
    TransferScales K :=
  { window := window
    densityScale := psdScale config.sampleRate (sumSquares window)
    alpha := smoothingAlpha exp config }

/-- `referenceBins_[k]` or `measurementBins_[k]`. -/
def frameBin (trig : Trig K) (fftSize : ℕ) (window frame : List K) (k : ℕ) : Cplx K :=
  realFftForward trig fftSize (fun n => (applyWindow window frame).getD n 0) k

/-- `sxx`, `syy` and `sxy` of a frame pair at a bin. -/
def binSpectra (trig : Trig K) (config : DualFftConfig) (scales : TransferScales K) (k : ℕ)
    (pair : List K × List K) : K × K × Cplx K :=
  let x := frameBin trig config.fftSize scales.window pair.1 k
  let y := frameBin trig config.fftSize scales.window pair.2 k
  let factor := scales.densityScale * binFactor k (numBins config)
  (x.norm * factor, y.norm * factor, factor • (star x * y))

namespace TransferEngine

/-- The constructor. -/
def make [Inhabited K] (exp : K → K) (config : DualFftConfig) (window : List K) :
    Except DualFftError (TransferEngine K) := do
  let streams ← DualFftEngine.make config
  return { streams := streams, scales := .make exp config window }

/-- `accumulate(bin, sxx, syy, sxy)`. -/
def accumulate (e : TransferEngine K) (frameCount bin : ℕ) (spectra : K × K × Cplx K) :
    TransferEngine K :=
  let config := e.streams.config
  { e with
    sxx := e.sxx.accumulate config e.scales.alpha (numBins config) frameCount bin spectra.1
    syy := e.syy.accumulate config e.scales.alpha (numBins config) frameCount bin spectra.2.1
    sxy := e.sxy.accumulate config e.scales.alpha (numBins config) frameCount bin spectra.2.2 }

variable (trig : Trig K)

/-- `analyseFramePair()`, with `frameCount_` as it stands after the increment. -/
def analyseFramePair (e : TransferEngine K) (frameCount : ℕ) (pair : List K × List K) :
    TransferEngine K :=
  (List.range (numBins e.streams.config)).foldl
    (fun acc k => acc.accumulate frameCount k (binSpectra trig e.streams.config e.scales k pair)) e

/-- The frame pairs of a call, one after another. -/
def analyseFramePairs (e : TransferEngine K) (frameCount : ℕ) :
    List (List K × List K) → TransferEngine K
  | [] => e
  | pair :: pairs =>
    (e.analyseFramePair trig (frameCount + 1) pair).analyseFramePairs (frameCount + 1) pairs

/-- `process` or `reset`. -/
def call (e : TransferEngine K) : EngineCall K → Except DualFftError (TransferEngine K)
  | .process span => do
    let streams ← e.streams.call (.process span)
    return { e with streams := streams }.analyseFramePairs trig e.streams.frameCount
      (streams.frames.drop e.streams.frames.length)
  | .reset => do
    let streams ← e.streams.call .reset
    return { e with
      streams := streams
      sxx := e.sxx.reset
      syy := e.syy.reset
      sxy := e.sxy.reset }

/-- One call after another. -/
def run (e : TransferEngine K) (calls : List (EngineCall K)) :
    Except DualFftError (TransferEngine K) :=
  calls.foldlM (fun e c => e.call trig c) e

end TransferEngine

/-! ### The invariant of a bin -/

variable [AddCommGroup V] [Module K V]

/-- What a mode makes of the spectra of the frames so far. -/
def averageOf (config : DualFftConfig) (alpha : K) (xs : List V) : V :=
  if config.averaging = .fifo then listMean K (xs.rtake (min xs.length config.fifoDepth))
  else smoothedMean alpha xs

namespace SpectrumAverage

/-- A bin after frames with the given spectra. In FIFO mode the slots have those of the last
frames, and the running sum is theirs. -/
structure BinHolds (config : DualFftConfig) (alpha : K) (numBins : ℕ) (a : SpectrumAverage V)
    (bin : ℕ) (xs : List V) : Prop where
  mean : a.mean bin = averageOf config alpha xs
  runningSum : config.averaging = .fifo → a.runningSum bin = (xs.rtake config.fifoDepth).sum
  slots : config.averaging = .fifo →
    KeepsNewest config.fifoDepth (fun slot => a.fifo (slot * numBins + bin)) xs

variable {config : DualFftConfig} {alpha : K} {numBins bin : ℕ} {a : SpectrumAverage V}
  {xs : List V}

theorem rtake_min_length (xs : List V) (k : ℕ) : xs.rtake (min xs.length k) = xs.rtake k := by
  rcases Nat.le_total xs.length k with hle | hle
  · rw [Nat.min_eq_left hle, rtake_of_length_le le_rfl, rtake_of_length_le hle]
  · rw [Nat.min_eq_right hle]

theorem averageOf_nil (config : DualFftConfig) (alpha : K) :
    averageOf config alpha ([] : List V) = 0 := by
  rw [averageOf, List.rtake, List.drop_nil, listMean_nil, smoothedMean, ite_self]

namespace BinHolds

/-- Whatever the slots hold. -/
theorem reset (config : DualFftConfig) (alpha : K) (numBins bin : ℕ) (a : SpectrumAverage V) :
    BinHolds config alpha numBins a.reset bin [] where
  mean := (averageOf_nil config alpha).symm
  runningSum _ := by rw [List.rtake, List.drop_nil, List.sum_nil]; rfl
  slots _ := .nil _ _

theorem empty (config : DualFftConfig) (alpha : K) (numBins bin : ℕ) :
    BinHolds config alpha numBins (SpectrumAverage.empty : SpectrumAverage V) bin [] :=
  reset config alpha numBins bin .empty

theorem place_eq_iff {slot slot' bin' : ℕ} (hbin : bin < numBins) (hbin' : bin' < numBins) :
    slot * numBins + bin = slot' * numBins + bin' ↔ slot = slot' ∧ bin = bin' := by
  constructor
  · intro h
    have hslot := congrArg (· / numBins) h
    have hmod := congrArg (· % numBins) h
    simp only [Nat.mul_comm _ numBins, Nat.mul_add_div (Nat.zero_lt_of_lt hbin),
      Nat.div_eq_of_lt hbin, Nat.div_eq_of_lt hbin', Nat.add_zero] at hslot
    simp only [Nat.mul_add_mod_self_right, Nat.mod_eq_of_lt hbin, Nat.mod_eq_of_lt hbin'] at hmod
    exact ⟨hslot, hmod⟩
  · rintro ⟨rfl, rfl⟩
    rfl

/-- The FIFO branch: the slot that is overwritten is the one of the frame that leaves. -/
theorem accumulateFifo (hbin : bin < numBins) (hdepth : 0 < config.fifoDepth)
    (hfifo : config.averaging = .fifo) (x : V) (h : BinHolds config alpha numBins a bin xs) :
    BinHolds config alpha numBins
      (a.accumulateFifo K config.fifoDepth numBins (xs.length + 1) bin x) bin (xs ++ [x]) := by
  have hnewest := h.slots hfifo
  have hsum := hnewest.sum_rtake_concat hdepth x
  have hkept : (if config.fifoDepth < xs.length + 1 then
        a.runningSum bin - a.fifo ((xs.length + 1 - 1) % config.fifoDepth * numBins + bin)
      else a.runningSum bin) + x = ((xs ++ [x]).rtake config.fifoDepth).sum := by
    rw [hsum, h.runningSum hfifo, Nat.add_sub_cancel]
    simp only [Nat.lt_succ_iff]
  refine ⟨?_, fun _ => ?_, fun _ => ?_⟩
  · show Function.update a.mean bin _ bin = _
    rw [Function.update_self, hkept, averageOf, if_pos hfifo, rtake_min_length, listMean,
      length_rtake, List.length_append, List.length_singleton, Nat.min_comm]
  · show Function.update a.runningSum bin _ bin = _
    rw [Function.update_self, hkept]
  · have hslots : (fun slot => Function.update a.fifo
          ((xs.length + 1 - 1) % config.fifoDepth * numBins + bin) x (slot * numBins + bin)) =
        Function.update (fun slot => a.fifo (slot * numBins + bin)) (xs.length % config.fifoDepth)
          x := by
      funext slot
      rw [Nat.add_sub_cancel, Function.update_apply, Function.update_apply]
      simp only [place_eq_iff hbin hbin, and_true]
    show KeepsNewest _ (fun slot => Function.update a.fifo _ x (slot * numBins + bin)) _
    rw [hslots]
    exact hnewest.concat x

theorem accumulateExponential (hexp : config.averaging ≠ .fifo) (x : V)
    (h : BinHolds config alpha numBins a bin xs) :
    BinHolds config alpha numBins (a.accumulateExponential alpha (xs.length + 1) bin x) bin
      (xs ++ [x]) := by
  refine ⟨?_, fun hfifo => absurd hfifo hexp, fun hfifo => absurd hfifo hexp⟩
  show Function.update a.mean bin _ bin = _
  rw [Function.update_self, averageOf, if_neg hexp, smoothedMean_concat, h.mean, averageOf,
    if_neg hexp]
  simp only [Nat.add_eq_right]
  rfl

/-- The bin of a frame. -/
theorem accumulate (hbin : bin < numBins) (hdepth : config.averaging = .fifo → 0 < config.fifoDepth)
    (x : V) (h : BinHolds config alpha numBins a bin xs) :
    BinHolds config alpha numBins (a.accumulate config alpha numBins (xs.length + 1) bin x) bin
      (xs ++ [x]) := by
  rw [SpectrumAverage.accumulate]
  split
  · rename_i hfifo
    exact h.accumulateFifo hbin (hdepth hfifo) hfifo x
  · rename_i hexp
    exact h.accumulateExponential hexp x

theorem accumulate_of_ne {other : ℕ} (hbin : bin < numBins) (hother : other < numBins)
    (hne : bin ≠ other) (frameCount : ℕ) (x : V) (h : BinHolds config alpha numBins a bin xs) :
    BinHolds config alpha numBins (a.accumulate config alpha numBins frameCount other x) bin
      xs := by
  rw [SpectrumAverage.accumulate]
  split
  · refine ⟨?_, fun hfifo => ?_, fun hfifo => ?_⟩
    · exact (Function.update_of_ne hne _ _).trans h.mean
    · exact (Function.update_of_ne hne _ _).trans (h.runningSum hfifo)
    · have hslots : (fun slot => Function.update a.fifo
            ((frameCount - 1) % config.fifoDepth * numBins + other) x (slot * numBins + bin)) =
          fun slot => a.fifo (slot * numBins + bin) := by
        funext slot
        refine Function.update_of_ne (fun heq => hne ?_) _ _
        exact ((place_eq_iff hbin hother).mp heq).2
      show KeepsNewest _ (fun slot => Function.update a.fifo _ x (slot * numBins + bin)) _
      rw [hslots]
      exact h.slots hfifo
  · exact ⟨(Function.update_of_ne hne _ _).trans h.mean, h.runningSum, h.slots⟩

end BinHolds

end SpectrumAverage

end Dsp

end RtaTool
