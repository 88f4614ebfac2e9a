import RtaTool.Dsp.Refusals
import RtaTool.Measure.CycleArrival
import RtaTool.Measure.OutputPolicy
import RtaTool.Trace.Trace

/-!
# The alignment wizard

`AlignmentWizard` walks two loudspeakers through a crossover alignment: it asks four questions,
solos the high-pass side and captures it, solos the low-pass side and captures it, fits the pair,
and asks again where the measurement cannot decide. It drives the one `OutputEngine`.

Every operation is a function from the engine and the wizard to both. The numerical work is
floating point and is not modelled: the crossover search, the band fit, the expected offset, the
peak lag of a filter cascade and the two polarity estimators are the fields of `AlignDsp`, and
every result holds whatever they compute. What the wizard *decides* from their answers -- which
refusal, which cycle integer, which step -- is all here.

## Main definitions

* `WizardStep`, `WizardRefusal`, `Source`, `AlignmentWizard`
* `AlignDsp` -- the numerical routines the wizard calls
* `arm`, `poll`, `submitCapture`, `beginMeasuredSum`, `submitMeasuredSum` -- the sequence
* `compute` -- the fit and the two questions after it

## Main results

* `arm_of_accepts`, `submitCapture_of_high`, `submitCapture_of_low` -- each call as its guard and
  its effect
* `compute_of_pairRefusal_none`, `compute_of_refused` -- the two ways a computation ends
-/

namespace RtaTool

/-- `WizardRefusal`. -/
inductive WizardRefusal
  | none
  | missingAnswer
  | engineNotQuiescent
  | windowNotOpen
  | wrongStep
  | sampleRateMismatch
  | fftSizeMismatch
  | referenceMismatch
  | traceNotUsable
  deriving DecidableEq, Repr

/-- `Source`: which of the two captures is meant. -/
inductive Source
  | main
  | sub
  deriving DecidableEq, Repr

/-- `WizardStep`. -/
inductive WizardStep
  | answering
  | measuringHigh
  | measuringLow
  | askingCycle
  | askingPolarity
  | computed
  | measuringSum
  | done
  deriving DecidableEq, Repr

inductive CrossoverFamily
  | linkwitzRiley
  | butterworth
  deriving DecidableEq, Repr

/-- `Topology`; its default is a fourth-order Linkwitz-Riley. -/
structure Topology where
  family : CrossoverFamily := .linkwitzRiley
  order : ℤ := 4
  deriving DecidableEq

inductive ProcessorInversion
  | yes
  | no
  | unknown
  deriving DecidableEq, Repr

inductive SignalStanding
  | authoritative
  | advisory
  | refused
  deriving DecidableEq, Repr

inductive PolaritySignalKind
  | findPolarityHighSide
  | findPolarityLowSide
  | relativePolarityRho
  | whitenedCorrelationPeak
  deriving DecidableEq, Repr

/-- `PolaritySignal`. -/
structure PolaritySignal where
  kind : PolaritySignalKind
  standing : SignalStanding
  sign : Sign
  refusal : IrRefusal
  figure : ℚ
  reason : String

/-- `acrossCrossoverReason()`. -/
def acrossCrossoverReason : String := "sign undefined across a crossover"

/-- `ImpulseWitness`: an impulse response and where its direct sound arrived. -/
structure ImpulseWitness (Ir : Type) where
  deconvolution : Ir
  arrivalSamples : ℤ

structure SpectralCrossover where
  frequencyHz : ℚ
  allCrossingsHz : List ℚ
  refusal : CrossoverRefusal

/-- `dsp::BandFitOptions`. -/
structure BandFitOptions where
  centreHz : ℚ := 0
  octavesEachSide : ℚ := 1
  tauRangeSeconds : ℚ := 20 / 1000
  tauGridSeconds : ℚ := 1 / 1000000
  maxCycleCandidates : ℤ := 3
  minimumGatedCoherence : ℚ := 0
  appliedDelayDifferenceSamples : ℚ := 0
  sampleRate : ℚ := 48000

structure BandFit where
  tauSeconds : ℚ
  interceptRadians : ℚ
  agreement : ℚ
  meanFrequencyHz : ℚ
  /-- `(tauSeconds, agreement)` of each local maximum, the winner first. -/
  cycleCandidates : List (ℚ × ℚ)
  refusal : CrossoverRefusal

structure ExpectedOffset where
  radians : ℚ
  ambiguous : Bool
  alternativeRadians : ℚ

/-- `Verdict`: the fitted intercept against the topology the operator named. -/
structure Verdict where
  crossoverHz : ℚ
  crossingsHz : List ℚ
  tauSeconds : ℚ
  candidateTausSeconds : List ℚ
  interceptRadians : ℚ
  agreement : ℚ
  meanFrequencyHz : ℚ
  expectedRadians : ℚ
  deltaRadians : ℚ
  expectedAmbiguous : Bool
  alternativeExpectedRadians : ℚ
  alternativeDeltaRadians : ℚ
  matchedPair : Bool
  fitRefusal : CrossoverRefusal

structure SeedDisagreement where
  seedHz : ℚ
  crossingHz : ℚ
  hintAtSeedSamples : ℤ
  hintAtCrossingSamples : ℤ

/-- The floating-point routines the wizard calls. Nothing is assumed of them. -/
structure AlignDsp (Ir : Type) where
  spectralCrossover : List ℚ → List ℚ → Option (List ℚ) → Option (List ℚ) → ℚ → ℚ → Option ℚ →
    SpectralCrossover
  /-- The fit of the two rendered responses. -/
  crossoverBandFit : VirtualTrace → VirtualTrace → Option (List ℚ) → Option (List ℚ) → ℚ →
    BandFitOptions → BandFit
  expectedOffset : Topology → ProcessorInversion → ExpectedOffset
  wrapToPiHalfOpen : ℚ → ℚ
  topologyPeakLagSamples : Topology → Bool → ℚ → ℚ → ℚ
  /-- `findPolarity`: sign, refusal and confidence. -/
  findPolarity : Ir → Sign × IrRefusal × ℚ
  /-- `relativePolarity`: sign, refusal and rho. -/
  relativePolarity : Ir → Ir → Sign × IrRefusal × ℚ

/-- `AlignmentWizard::Config`. -/
structure AlignConfig where
  mainOutputChannel : ℤ := 0
  subOutputChannel : ℤ := 1
  sampleRate : ℚ := 48000
  fit : BandFitOptions := {}
  matchedPairAgreement : ℚ := 1 / 2
  minimumGatedCoherence : ℚ := 0

/-- `AlignmentWizard`, less the engine it holds a reference to. -/
structure AlignmentWizard (Src Ir : Type) where
  source : Option Src
  config : AlignConfig
  highPassSide : Option Source := none
  topology : Option Topology := none
  inversion : Option ProcessorInversion := none
  seedHz : Option ℚ := none
  seedAnswered : Bool := false
  cycleAnswer : Option ℤ := none
  irMain : Option (ImpulseWitness Ir) := none
  irSub : Option (ImpulseWitness Ir) := none
  whitenedSign : Option Sign := none
  mainCapture : Option Trace := none
  subCapture : Option Trace := none
  measuredSum : Option Trace := none
  step : WizardStep := .answering
  refusal : WizardRefusal := .none
  windowOpen : Bool := false
  stepStartSamples : UInt64 := 0
  verdict : Option Verdict := none
  signals : List PolaritySignal := []
  cycleOffset : Option ℤ := none
  irHint : Option ℤ := none
  seedDisagreement : Option SeedDisagreement := none
  cycleFromIr : Bool := false
  lastFit : BandFitOptions := {}

namespace AlignmentWizard

open OutputEngine

variable {Src Ir : Type}

/-! ### The asked questions and the witnesses -/

def answerHighPassSide (w : AlignmentWizard Src Ir) (side : Source) : AlignmentWizard Src Ir :=
  { w with highPassSide := some side }

def answerTopology (w : AlignmentWizard Src Ir) (answer : Topology) : AlignmentWizard Src Ir :=
  { w with topology := some answer }

def answerInversion (w : AlignmentWizard Src Ir) (answer : ProcessorInversion) :
    AlignmentWizard Src Ir :=
  { w with inversion := some answer }

/-- Answering "no seed" is an answer, so the asking is recorded apart from the value. -/
def answerCrossoverSeed (w : AlignmentWizard Src Ir) (hz : Option ℚ) : AlignmentWizard Src Ir :=
  { w with seedHz := hz, seedAnswered := true }

/-- `answerCycleOffsetSamples`: in `AskingCycle` it is the answer waited for, and the step moves
to `Computed`; later it overrides the integer. -/
def answerCycleOffsetSamples (w : AlignmentWizard Src Ir) (samples : Option ℤ) :
    AlignmentWizard Src Ir :=
  match samples with
  | none => { w with cycleAnswer := samples }
  | some _ =>
    match w.step with
    | .askingCycle => { w with cycleAnswer := samples, cycleOffset := samples, step := .computed }
    | .computed | .askingPolarity =>
      { w with cycleAnswer := samples, cycleOffset := samples, cycleFromIr := false }
    | _ => { w with cycleAnswer := samples }

def supplyImpulseResponse (w : AlignmentWizard Src Ir) (source : Source)
    (witness : ImpulseWitness Ir) : AlignmentWizard Src Ir :=
  match source with
  | .sub => { w with irSub := some witness }
  | .main => { w with irMain := some witness }

def supplyWhitenedPeakSign (w : AlignmentWizard Src Ir) (sign : Sign) : AlignmentWizard Src Ir :=
  { w with whitenedSign := some sign }

def highSideIr (w : AlignmentWizard Src Ir) : Option (ImpulseWitness Ir) :=
  if w.highPassSide = some .sub then w.irSub else w.irMain

def lowSideIr (w : AlignmentWizard Src Ir) : Option (ImpulseWitness Ir) :=
  if w.highPassSide = some .sub then w.irMain else w.irSub

def highSideChannel (w : AlignmentWizard Src Ir) : ℤ :=
  if w.highPassSide = some .sub then w.config.subOutputChannel else w.config.mainOutputChannel

def lowSideChannel (w : AlignmentWizard Src Ir) : ℤ :=
  if w.highPassSide = some .sub then w.config.mainOutputChannel else w.config.subOutputChannel

/-! ### The sequence -/

/-- The settle time of one step in samples: 480 at 48 kHz, truncated to an integer. -/
def neededSamples (config : AlignConfig) : UInt64 :=
  UInt64.ofNat ⌊480 * config.sampleRate / 48000⌋.toNat

/-- `soloStep(channel)`: strict solo, the window closes, and the step's start is the counter as it
stands now. -/
def soloStep (e : OutputEngine Src) (w : AlignmentWizard Src Ir) (channel : ℤ) :
    OutputEngine Src × AlignmentWizard Src Ir :=
  (e.soloOutput channel,
    { w with windowOpen := false, stepStartSamples := (e.soloOutput channel).renderedSamples })

/-- All four questions have been answered. -/
def Answered (w : AlignmentWizard Src Ir) : Prop :=
  w.highPassSide.isSome ∧ w.topology.isSome ∧ w.inversion.isSome ∧ w.seedAnswered = true

instance (w : AlignmentWizard Src Ir) : Decidable w.Answered :=
  inferInstanceAs (Decidable (_ ∧ _ ∧ _ ∧ _))

/-- `arm()`. The solo comes before `armSource`, and so the step's start is read before the counter
is zeroed. -/
def arm (e : OutputEngine Src) (w : AlignmentWizard Src Ir) :
    OutputEngine Src × AlignmentWizard Src Ir :=
  if w.step ≠ .answering then (e, { w with refusal := .wrongStep })
  else if ¬ w.Answered then (e, { w with refusal := .missingAnswer })
  else
    match e.setSource w.source with
    | (false, e') => (e', { w with refusal := .engineNotQuiescent })
    | (true, e') =>
      let (e'', w') := soloStep e' { w with refusal := .none } w.highSideChannel
      (e''.armSource, { w' with step := .measuringHigh })

/-- The wizard is in one of the three measuring steps. -/
def Measuring (w : AlignmentWizard Src Ir) : Prop :=
  w.step = .measuringHigh ∨ w.step = .measuringLow ∨ w.step = .measuringSum

instance (w : AlignmentWizard Src Ir) : Decidable w.Measuring :=
  inferInstanceAs (Decidable (_ ∨ _ ∨ _))

/-- `poll()`: the counter less the step's start, as unsigned 64-bit numbers. -/
def poll (e : OutputEngine Src) (w : AlignmentWizard Src Ir) : AlignmentWizard Src Ir :=
  if ¬ w.Measuring then w
  else if neededSamples w.config ≤ e.renderedSamples - w.stepStartSamples then
    { w with windowOpen := true }
  else w

/-- `coherenceOf(trace)`: an empty column is no coherence. -/
def coherenceOf (tr : Trace) : Option (List ℚ) :=
  if tr.coherence = [] then none else some tr.coherence

/-- The refusal `compute` gives a pair, or `none`. -/
def pairRefusal (a b : Trace) : WizardRefusal :=
  if a.info.sampleRate ≠ b.info.sampleRate then .sampleRateMismatch
  else if a.info.fftSize ≠ b.info.fftSize then .fftSizeMismatch
  else if a.info.channelRoles ≠ b.info.channelRoles then .referenceMismatch
  else if (VirtualTrace.fromTrace a).isNone ∨ (VirtualTrace.fromTrace b).isNone then
    .traceNotUsable
  else .none

/-! ### The polarity table -/

/-- One `findPolarity` row. A refused reading is listed as refused. -/
def findPolaritySignal (dsp : AlignDsp Ir) (kind : PolaritySignalKind)
    (ir : ImpulseWitness Ir) : PolaritySignal :=
  let found := dsp.findPolarity ir.deconvolution
  { kind := kind
    standing := if found.2.1 = .none then .advisory else .refused
    sign := found.1
    refusal := found.2.1
    figure := found.2.2
    reason :=
      if found.2.1 = .none then "absolute sign of this box's first arrival"
      else "findPolarity refused -- see its refusal code" }

/-- The `relativePolarity` row. -/
def rhoSignal (dsp : AlignDsp Ir) (high low : ImpulseWitness Ir) : PolaritySignal :=
  let rho := dsp.relativePolarity high.deconvolution low.deconvolution
  { kind := .relativePolarityRho
    standing := .advisory
    sign := rho.1
    refusal := rho.2.1
    figure := rho.2.2
    reason := acrossCrossoverReason }

/-- The row of the whitened peak the caller supplied, if any. -/
def whitenedSignal (sign : Sign) : PolaritySignal where
  kind := .whitenedCorrelationPeak
  standing := .advisory
  sign := sign
  refusal := .none
  figure := 0
  reason := acrossCrossoverReason

/-- `buildPolaritySignals()`: empty without an impulse response of each side. -/
def buildPolaritySignals (dsp : AlignDsp Ir) (w : AlignmentWizard Src Ir) : List PolaritySignal :=
  match w.highSideIr, w.lowSideIr with
  | some high, some low =>
    [findPolaritySignal dsp .findPolarityHighSide high,
      findPolaritySignal dsp .findPolarityLowSide low, rhoSignal dsp high low] ++
      (w.whitenedSign.map whitenedSignal).toList
  | _, _ => []

/-- `eligibleSign(kind)`: the first row of that kind, unless it was refused. -/
def eligibleSign (signals : List PolaritySignal) (kind : PolaritySignalKind) : Sign :=
  match signals.find? (·.kind = kind) with
  | some signal => if signal.standing = .refused then .unknown else signal.sign
  | none => .unknown

/-- `productOf(a, b)`. -/
def productOf (a b : Sign) : Sign :=
  if a = .unknown ∨ b = .unknown then .unknown else if a = b then .positive else .negative

/-- Both signals are eligible and they disagree: the product of the two `findPolarity` readings,
and rho. -/
def SignalsDisagree (signals : List PolaritySignal) : Prop :=
  let sides := productOf (eligibleSign signals .findPolarityHighSide)
    (eligibleSign signals .findPolarityLowSide)
  let rho := eligibleSign signals .relativePolarityRho
  sides ≠ .unknown ∧ rho ≠ .unknown ∧ sides ≠ rho

instance (signals : List PolaritySignal) : Decidable (SignalsDisagree signals) :=
  inferInstanceAs (Decidable (_ ∧ _ ∧ _))

/-! ### The fit -/

/-- The options the fit is handed: the band centre, and `D_B - D_A` passed once. -/
def fitOptions (w : AlignmentWizard Src Ir) (crossingHz : ℚ) (a b : Trace) : BandFitOptions :=
  { w.config.fit with
    centreHz := crossingHz
    minimumGatedCoherence := w.config.minimumGatedCoherence
    sampleRate := a.info.sampleRate
    appliedDelayDifferenceSamples :=
      (b.info.appliedDelaySamples - a.info.appliedDelaySamples : ℤ) }

/-- The verdict `compute` stores. The two optionals it dereferences are answered before `arm`
accepts. -/
def verdictOf (dsp : AlignDsp Ir) (w : AlignmentWizard Src Ir) (crossing : SpectralCrossover)
    (fit : BandFit) : Verdict :=
  let expected := dsp.expectedOffset (w.topology.getD {}) (w.inversion.getD .unknown)
  { crossoverHz := crossing.frequencyHz
    crossingsHz := crossing.allCrossingsHz
    tauSeconds := fit.tauSeconds
    candidateTausSeconds := fit.cycleCandidates.map (·.1)
    interceptRadians := fit.interceptRadians
    agreement := fit.agreement
    meanFrequencyHz := fit.meanFrequencyHz
    expectedRadians := expected.radians
    deltaRadians := dsp.wrapToPiHalfOpen (fit.interceptRadians - expected.radians)
    expectedAmbiguous := expected.ambiguous
    alternativeExpectedRadians := expected.alternativeRadians
    alternativeDeltaRadians :=
      dsp.wrapToPiHalfOpen (fit.interceptRadians - expected.alternativeRadians)
    matchedPair := decide (w.config.matchedPairAgreement ≤ fit.agreement)
    fitRefusal := fit.refusal }

/-- `hintWithLagAt(lagHz)`: the arrival difference less the named topology's peak lag. -/
def hintWithLagAt (dsp : AlignDsp Ir) (w : AlignmentWizard Src Ir) (high low : ImpulseWitness Ir)
    (fs lagHz : ℚ) : ℤ :=
  let topology := w.topology.getD {}
  let lag := dsp.topologyPeakLagSamples topology false lagHz fs -
    dsp.topologyPeakLagSamples topology true lagHz fs
  low.arrivalSamples - high.arrivalSamples - llround lag

/-- The cycle integer: the operator's answer, else the impulse responses' when it is clearly
nearest one candidate, else none. -/
def resolveCycle (dsp : AlignDsp Ir) (w : AlignmentWizard Src Ir) (fs crossingHz : ℚ)
    (candidates : List ℚ) (tauRange : ℚ) : AlignmentWizard Src Ir :=
  let w := { w with
    cycleOffset := w.cycleAnswer
    cycleFromIr := false
    irHint := none
    seedDisagreement := none }
  match w.cycleAnswer, w.highSideIr, w.lowSideIr with
  | none, some high, some low =>
    let hint := hintWithLagAt dsp w high low fs (w.seedHz.getD crossingHz)
    let w := { w with irHint := some hint }
    match w.seedHz.filter fun seed => !seedAgreesWithCrossing seed crossingHz with
    | some seed =>
      { w with
        seedDisagreement := some
          { seedHz := seed
            crossingHz := crossingHz
            hintAtSeedSamples := hint
            hintAtCrossingSamples := hintWithLagAt dsp w high low fs crossingHz } }
    | none =>
      if (candidateWithinGuard candidates (hint / fs) tauRange).isSome then
        { w with cycleOffset := some hint, cycleFromIr := true }
      else w
  | _, _, _ => w

/-- The step `compute` ends in: the cycle question first, then the polarity question. -/
def stepAfterFit (w : AlignmentWizard Src Ir) : WizardStep :=
  if w.cycleOffset.isNone then .askingCycle
  else if SignalsDisagree w.signals then .askingPolarity
  else .computed

/-- `compute()` from where the pair has been found usable. -/
def computeFit (dsp : AlignDsp Ir) (w : AlignmentWizard Src Ir) (a b : Trace)
    (virtualA virtualB : VirtualTrace) : AlignmentWizard Src Ir :=
  let crossing := dsp.spectralCrossover a.magnitude b.magnitude (coherenceOf a) (coherenceOf b)
    a.binHz w.config.minimumGatedCoherence w.seedHz
  let options := w.fitOptions crossing.frequencyHz a b
  let fit := dsp.crossoverBandFit virtualA virtualB (coherenceOf a) (coherenceOf b) a.binHz options
  let verdict := w.verdictOf dsp crossing fit
  let w := { w with
    lastFit := options
    verdict := some verdict
    signals := w.buildPolaritySignals dsp }
  let w := w.resolveCycle dsp a.info.sampleRate crossing.frequencyHz verdict.candidateTausSeconds
    options.tauRangeSeconds
  { w with step := w.stepAfterFit }

/-- The high-pass and the low-pass capture, in that order, if both are there. -/
def pair (w : AlignmentWizard Src Ir) : Option (Trace × Trace) :=
  match w.mainCapture, w.subCapture with
  | some main, some sub => some (if w.highPassSide = some .main then (main, sub) else (sub, main))
  | _, _ => none

/-- `compute()`. Every early return sets a refusal and leaves the step alone. -/
def compute (dsp : AlignDsp Ir) (w : AlignmentWizard Src Ir) : AlignmentWizard Src Ir :=
  match w.pair with
  | none => { w with refusal := .wrongStep }
  | some (a, b) =>
    match pairRefusal a b, VirtualTrace.fromTrace a, VirtualTrace.fromTrace b with
    | .none, some virtualA, some virtualB => w.computeFit dsp a b virtualA virtualB
    | refusal, _, _ => { w with refusal := refusal }

/-- Which capture a measuring step stores into: main exactly when question (a) names the side
being measured. -/
def intoMain (w : AlignmentWizard Src Ir) : Bool :=
  decide (w.highPassSide = some .main) == decide (w.step = .measuringHigh)

/-- The capture a measuring step stores. -/
def storeCapture (w : AlignmentWizard Src Ir) (tr : Trace) : AlignmentWizard Src Ir :=
  { w with
    mainCapture := if w.intoMain then some tr else w.mainCapture
    subCapture := if w.intoMain then w.subCapture else some tr }

/-- `submitCapture(trace)`. -/
def submitCapture (dsp : AlignDsp Ir) (e : OutputEngine Src) (w : AlignmentWizard Src Ir)
    (tr : Trace) : OutputEngine Src × AlignmentWizard Src Ir :=
  let w := { w with refusal := .none }
  if w.step ≠ .measuringHigh ∧ w.step ≠ .measuringLow then (e, { w with refusal := .wrongStep })
  else if !w.windowOpen then (e, { w with refusal := .windowNotOpen })
  else
    let stored := w.storeCapture tr
    if w.step = .measuringHigh then
      let (e', w') := soloStep e stored stored.lowSideChannel
      (e', { w' with step := .measuringLow })
    else (e.disarmSource, stored.compute dsp)

/-- `beginMeasuredSum()`: here `armSource` comes before the step's start is read. -/
def beginMeasuredSum (e : OutputEngine Src) (w : AlignmentWizard Src Ir) :
    OutputEngine Src × AlignmentWizard Src Ir :=
  if w.step ≠ .computed ∧ w.step ≠ .askingCycle ∧ w.step ≠ .askingPolarity then
    (e, { w with refusal := .wrongStep })
  else
    let e' := ((e.soloOutput w.config.mainOutputChannel).applyToggle w.config.subOutputChannel true
      .additive).armSource
    (e', { w with
      refusal := .none
      windowOpen := false
      stepStartSamples := e'.renderedSamples
      step := .measuringSum })

/-- `submitMeasuredSum(trace)`. -/
def submitMeasuredSum (e : OutputEngine Src) (w : AlignmentWizard Src Ir) (tr : Trace) :
    OutputEngine Src × AlignmentWizard Src Ir :=
  if w.step ≠ .measuringSum then (e, { w with refusal := .wrongStep })
  else if !w.windowOpen then (e, { w with refusal := .windowNotOpen })
  else (e.disarmSource, { w with refusal := .none, measuredSum := some tr, step := .done })

/-! ### Each call as its guard and its effect -/

/-- `arm()` is accepted: the questions are answered and the engine is quiescent. -/
def ArmAccepts (e : OutputEngine Src) (w : AlignmentWizard Src Ir) : Prop :=
  w.step = .answering ∧ w.Answered ∧ e.publishedIdle = true ∧ e.armed = false

instance (e : OutputEngine Src) (w : AlignmentWizard Src Ir) : Decidable (ArmAccepts e w) :=
  inferInstanceAs (Decidable (_ ∧ _ ∧ _ ∧ _))

/-- `submitCapture` is accepted: a side is being measured and its window is open. -/
def Accepting (w : AlignmentWizard Src Ir) : Prop :=
  (w.step = .measuringHigh ∨ w.step = .measuringLow) ∧ w.windowOpen = true

instance (w : AlignmentWizard Src Ir) : Decidable w.Accepting :=
  inferInstanceAs (Decidable (_ ∧ _))

/-- `beginMeasuredSum` is accepted. -/
def SumAccepts (w : AlignmentWizard Src Ir) : Prop :=
  w.step = .computed ∨ w.step = .askingCycle ∨ w.step = .askingPolarity

instance (w : AlignmentWizard Src Ir) : Decidable w.SumAccepts :=
  inferInstanceAs (Decidable (_ ∨ _ ∨ _))

/-- The engine an accepted `arm` leaves: the wizard's source, one output, armed. -/
def armedEngine (e : OutputEngine Src) (w : AlignmentWizard Src Ir) : OutputEngine Src :=
  ((e.setSource w.source).2.soloOutput w.highSideChannel).armSource

variable {w : AlignmentWizard Src Ir} {e : OutputEngine Src}

theorem arm_of_accepts (h : ArmAccepts e w) :
    arm e w = (armedEngine e w, { w with
      refusal := .none
      windowOpen := false
      stepStartSamples := e.renderedSamples
      step := .measuringHigh }) := by
  obtain ⟨hstep, hans, hidle, harm⟩ := h
  have hset := setSource_eq e w.source
  rw [if_pos ⟨hidle, harm⟩] at hset
  rw [arm, if_neg (by simp [hstep]), if_neg (by simp [hans]), armedEngine, hset]
  simp [soloStep, highSideChannel]

theorem arm_of_not_accepts
    (h : ¬ ArmAccepts e w) : ∃ r, arm e w = (e, { w with refusal := r }) := by
  rw [arm]
  by_cases hstep : w.step = .answering
  · by_cases hans : w.Answered
    · have hset := setSource_eq e w.source
      rw [if_neg fun hq => h ⟨hstep, hans, hq.1, hq.2⟩] at hset
      rw [if_neg (by simp [hstep]), if_neg (by simp [hans]), hset]
      exact ⟨_, rfl⟩
    · rw [if_neg (by simp [hstep]), if_pos hans]
      exact ⟨_, rfl⟩
  · rw [if_pos hstep]
    exact ⟨_, rfl⟩

section

variable (dsp : AlignDsp Ir)

theorem submitCapture_of_not_accepting (e : OutputEngine Src) (tr : Trace) (h : ¬ w.Accepting) :
    ∃ r, submitCapture dsp e w tr = (e, { w with refusal := r }) := by
  rw [submitCapture]
  by_cases hstep : w.step ≠ .measuringHigh ∧ w.step ≠ .measuringLow
  · rw [if_pos hstep]
    exact ⟨_, rfl⟩
  · have hmeasuring : w.step = .measuringHigh ∨ w.step = .measuringLow := by
      by_contra hne
      exact hstep (not_or.mp hne)
    have hwin : w.windowOpen = false := by
      by_contra hw
      exact h ⟨hmeasuring, Bool.eq_true_of_not_eq_false hw⟩
    rw [if_neg hstep, if_pos (by simp [hwin])]
    exact ⟨_, rfl⟩

theorem submitCapture_of_high {dsp : AlignDsp Ir} {tr : Trace} (hstep : w.step = .measuringHigh)
    (hwin : w.windowOpen = true) :
    submitCapture dsp e w tr =
      (e.soloOutput w.lowSideChannel,
        { w.storeCapture tr with
          refusal := .none
          windowOpen := false
          stepStartSamples := e.renderedSamples
          step := .measuringLow }) := by
  rw [submitCapture, if_neg (by simp [hstep]), if_neg (by simp [hwin])]
  dsimp only
  rw [if_pos hstep, soloStep, soloOutput_renderedSamples]
  rfl

theorem submitCapture_of_low {dsp : AlignDsp Ir} {tr : Trace} (hstep : w.step = .measuringLow)
    (hwin : w.windowOpen = true) :
    submitCapture dsp e w tr =
      (e.disarmSource, (storeCapture { w with refusal := .none } tr).compute dsp) := by
  rw [submitCapture, if_neg (by simp [hstep]), if_neg (by simp [hwin]),
    if_neg (by simp [hstep])]

theorem beginMeasuredSum_of_accepts (h : w.SumAccepts) :
    beginMeasuredSum e w =
      (((e.soloOutput w.config.mainOutputChannel).applyToggle w.config.subOutputChannel true
          .additive).armSource,
        { w with refusal := .none, windowOpen := false, stepStartSamples := 0,
                 step := .measuringSum }) := by
  have hnot : ¬ (w.step ≠ .computed ∧ w.step ≠ .askingCycle ∧ w.step ≠ .askingPolarity) := by
    rintro ⟨h1, h2, h3⟩
    rcases h with h | h | h <;> contradiction
  rw [beginMeasuredSum, if_neg hnot]
  rfl

theorem beginMeasuredSum_of_not_accepts
    (h : ¬ w.SumAccepts) : beginMeasuredSum e w = (e, { w with refusal := .wrongStep }) := by
  have hne : w.step ≠ .computed ∧ w.step ≠ .askingCycle ∧ w.step ≠ .askingPolarity :=
    ⟨fun h1 => h (.inl h1), fun h2 => h (.inr (.inl h2)), fun h3 => h (.inr (.inr h3))⟩
  rw [beginMeasuredSum, if_pos hne]

/-! ### What a fit leaves behind -/

/-- What `compute` leaves alone whatever it decides. -/
structure SameRun (w w' : AlignmentWizard Src Ir) : Prop where
  config : w'.config = w.config
  highPassSide : w'.highPassSide = w.highPassSide
  windowOpen : w'.windowOpen = w.windowOpen

theorem resolveCycle_frame (w : AlignmentWizard Src Ir) (fs hz : ℚ) (taus : List ℚ) (range : ℚ) :
    ∃ offset hint disagreement fromIr, w.resolveCycle dsp fs hz taus range =
      { w with
        cycleOffset := offset
        irHint := hint
        seedDisagreement := disagreement
        cycleFromIr := fromIr } := by
  rw [resolveCycle]
  dsimp only
  split
  · split
    · exact ⟨_, _, _, _, rfl⟩
    · split
      · exact ⟨_, _, _, _, rfl⟩
      · exact ⟨_, _, _, _, rfl⟩
  · exact ⟨_, _, _, _, rfl⟩

theorem computeFit_step (w : AlignmentWizard Src Ir) (a b : Trace) (va vb : VirtualTrace) :
    (w.computeFit dsp a b va vb).step = (w.computeFit dsp a b va vb).stepAfterFit := rfl

/-- A fit leaves the run; the polarity table is a function of the impulse responses and the answer to
question (a). -/
theorem computeFit_frame (w : AlignmentWizard Src Ir) (a b : Trace)
    (va vb : VirtualTrace) : SameRun w (w.computeFit dsp a b va vb) ∧
      (w.computeFit dsp a b va vb).signals = w.buildPolaritySignals dsp := by
  obtain ⟨offset, hint, disagreement, fromIr, h⟩ := resolveCycle_frame dsp
    { w with
      lastFit := w.fitOptions (dsp.spectralCrossover a.magnitude b.magnitude (coherenceOf a)
        (coherenceOf b) a.binHz w.config.minimumGatedCoherence w.seedHz).frequencyHz a b
      verdict := some (w.verdictOf dsp _ _)
      signals := w.buildPolaritySignals dsp } a.info.sampleRate _ _ _
  rw [computeFit, h]
  exact ⟨⟨rfl, rfl, rfl⟩, rfl⟩

theorem stepAfterFit_cases (w : AlignmentWizard Src Ir) :
    w.stepAfterFit = .askingCycle ∨ w.stepAfterFit = .askingPolarity ∨
      w.stepAfterFit = .computed := by
  rw [stepAfterFit]
  split
  · exact .inl rfl
  · split
    · exact .inr (.inl rfl)
    · exact .inr (.inr rfl)

theorem pairRefusal_none_iff_fromTrace {a b : Trace} (h : pairRefusal a b = .none) :
    (∃ va, VirtualTrace.fromTrace a = some va) ∧ ∃ vb, VirtualTrace.fromTrace b = some vb := by
  rw [pairRefusal] at h
  split at h
  · cases h
  · split at h
    · cases h
    · split at h
      · cases h
      · split at h
        · cases h
        · rename_i hnone
          rw [not_or] at hnone
          exact ⟨Option.ne_none_iff_exists'.mp (by simpa using hnone.1),
            Option.ne_none_iff_exists'.mp (by simpa using hnone.2)⟩

/-- A pair that is not refused is fitted. -/
theorem compute_of_pairRefusal_none {a b : Trace}
    (hpair : w.pair = some (a, b)) (h : pairRefusal a b = .none) :
    ∃ va vb, w.compute dsp = w.computeFit dsp a b va vb := by
  obtain ⟨⟨va, hva⟩, ⟨vb, hvb⟩⟩ := pairRefusal_none_iff_fromTrace h
  refine ⟨va, vb, ?_⟩
  rw [compute, hpair]
  simp only [h, hva, hvb]

/-- A refused pair, or a missing capture, leaves the step and the window as they were. -/
theorem compute_of_refused (h : ∀ a b, w.pair = some (a, b) → pairRefusal a b ≠ .none) :
    ∃ r, w.compute dsp = { w with refusal := r } := by
  rw [compute]
  cases hpair : w.pair with
  | none => exact ⟨_, rfl⟩
  | some p =>
    obtain ⟨a, b⟩ := p
    have hne := h a b hpair
    cases hr : pairRefusal a b with
    | none => exact absurd hr hne
    | _ => exact ⟨_, by simp only [hr]; rfl⟩

end

end AlignmentWizard

end RtaTool
