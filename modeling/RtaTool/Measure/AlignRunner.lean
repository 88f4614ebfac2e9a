import RtaTool.Measure.AlignmentWizard
import RtaTool.Measure.EqVerify

/-!
# The alignment's runner

`AlignRunner` is the operator's half of an alignment: it decides whether a press may start one, and
on every poll whether the latest published snapshot may be trusted as a measurement of the loudspeaker
that is playing. Between the two it owns one `AlignmentWizard`.

As for `EqVerifyRunner`, the world the runner reads is one record, `AlignView`, handed to each call.
What a press reads twice, the latest snapshot, is in it twice: another thread publishes it. One
field of it is bookkeeping, how many frames the device has delivered; the step's start is noted on
that count too, beside the two clocks the runner has.

Left out: status texts and the level in them, and the traces filed in the library, which no decision
of the run depends on.

## Main definitions

* `AlignAnswers`, `AlignEnvironment`, `AlignView`, `AlignRunner`
* `AlignRunner.blocker`, `AlignRunner.press`, `AlignRunner.pressSum`, `AlignRunner.poll`
* `AlignRunner.submission` -- the snapshot that a poll submits

## Main results

* `AlignRunner.tryResult_submit` -- what a submission has been checked for
* `AlignRunner.latest_of_submission` -- what is submitted is the latest snapshot
-/

namespace RtaTool

open OutputEngine AlignmentWizard

/-! ### The world the runner reads -/

/-- `AlignAnswers`: nothing is answered but the two outputs. -/
structure AlignAnswers where
  mainOutput : ℤ := 0
  subOutput : ℤ := 1
  highPass : Option Source := none
  topology : Option Topology := none
  inversion : Option ProcessorInversion := none
  seedAnswered : Bool := false
  seedHz : Option ℚ := none

/-- `complete()`. -/
def AlignAnswers.complete (a : AlignAnswers) : Bool :=
  a.highPass.isSome && a.topology.isSome && a.inversion.isSome && a.seedAnswered

/-- `AlignEnvironment`. -/
structure AlignEnvironment where
  synthetic : Bool := false
  deviceRunning : Bool := false
  captureBusy : Bool := false
  outputChannels : ℤ := 0

/-- `SweepIr`, as far as the runner reads it; the rest of it goes to the wizard. -/
structure SweepWitness (Ir : Type) where
  sampleRate : ℚ
  witness : ImpulseWitness Ir

/-- Everything one call of the runner reads from outside. `pressLatest` is the snapshot that a press
reads after `blocker` has read `latest`. -/
structure AlignView where
  attached : Bool
  environment : AlignEnvironment
  latest : Option Snapshot
  pressLatest : Option Snapshot
  captureConfig : CaptureConfig
  freeze : Snapshot → Option Trace
  nowMs : ℚ
  drive : Option MeasurementDrive
  /-- The frames the device has delivered. -/
  delivered : ℕ

/-- `AlignBlock`. -/
inductive AlignBlock
  | none
  | notAttached
  | running
  | missingAnswer
  | sameOutput
  | outputMissing
  | deviceNotRunning
  | captureBusy
  | noTransfer
  | sampleRateMismatch
  | exponentialAveraging
  | engineNotQuiescent
  deriving DecidableEq, Repr

/-- `AlignOutcome`. -/
inductive AlignOutcome
  | none
  | measured
  | sumMeasured
  | timedOut
  | deviceStopped
  | outputChanged
  | settingsChanged
  | fitRefused
  deriving DecidableEq, Repr

/-! ### The runner -/

/-- `AlignRunnerState`, less what it holds references to. -/
structure AlignRunner (Src Ir : Type) where
  answers : AlignAnswers := {}
  runAnswers : AlignAnswers := {}
  wizard : Option (AlignmentWizard Src Ir) := none
  refusal : AlignBlock := .none
  outcome : AlignOutcome := .none
  wizardRefusal : WizardRefusal := .none
  cycleSamples : Option ℤ := none
  cycleFromIr : Bool := false
  irMain : Option (SweepWitness Ir) := none
  irSub : Option (SweepWitness Ir) := none
  pressedEpoch : ℕ := 0
  pressedSynthetic : Bool := false
  pressedFftSize : ℕ := 0
  pressedSampleRate : ℚ := 0
  pressedAveraging : TransferAveraging := .fifo
  stepStartRendered : UInt64 := 0
  stepStartMs : ℚ := 0
  /-- The frames the device had delivered when the step started. -/
  stepStartDelivered : ℕ := 0

namespace AlignRunner

variable {Src Ir : Type}

/-- `kAlignLevelDbFs`. -/
def kAlignLevelDbFs : ℚ := -12

/-- `kAlignTimeoutMs`. -/
def kAlignTimeoutMs : ℚ := 5000

/-- `kAlignMatchedPairAgreement`. -/
def kAlignMatchedPairAgreement : ℚ := 1 / 2

/-- `measuring()`, which is `busy()`. -/
def measuring (r : AlignRunner Src Ir) : Bool :=
  (r.wizard.map fun w => decide w.Measuring).getD false

/-- `markStepStart()`: the clocks of this step's solo. -/
def markStepStart (e : OutputEngine Src) (r : AlignRunner Src Ir) (h : AlignView) :
    AlignRunner Src Ir :=
  { r with
    stepStartRendered := e.renderedSamples
    stepStartMs := h.nowMs
    stepStartDelivered := h.delivered }

/-- `abort(why, text)`: the excitation stops before anything else. -/
def abort (e : OutputEngine Src) (r : AlignRunner Src Ir) (why : AlignOutcome) :
    OutputEngine Src × AlignRunner Src Ir :=
  (e.disarmSource, { r with wizard := none, outcome := why })

/-- `levelDb()`. -/
def levelDb (h : AlignView) : ℚ := (h.drive.map (·.levelDb)).getD kAlignLevelDbFs

/-- `pinkSource()`. `pinkNoise` is the source's constructor; the seed is the time. -/
def pinkSource (pinkNoise : UInt64 → ℚ → Src) (h : AlignView) : Src :=
  pinkNoise (UInt64.ofNat ⌊h.nowMs⌋.toNat) (levelDb h)

/-- `blocker()`. -/
def blocker (e : OutputEngine Src) (r : AlignRunner Src Ir) (h : AlignView) : AlignBlock :=
  if !h.attached then .notAttached
  else if r.measuring then .running
  else if !r.answers.complete then .missingAnswer
  else if r.answers.mainOutput = r.answers.subOutput then .sameOutput
  else if !h.environment.synthetic && !h.environment.deviceRunning then .deviceNotRunning
  else if h.environment.captureBusy then .captureBusy
  else if r.answers.mainOutput < 0 ∨ r.answers.subOutput < 0 ∨
      h.environment.outputChannels ≤ r.answers.mainOutput ∨
      h.environment.outputChannels ≤ r.answers.subOutput then .outputMissing
  else
    match h.latest with
    | none => .noTransfer
    | some snapshot =>
      if snapshot.transfer.isNone then .noTransfer
      else if snapshot.sampleRate ≠ e.sampleRate then .sampleRateMismatch
      else if h.captureConfig.transferAveraging = .exponential then .exponentialAveraging
      else if !e.sourceIsQuiescent then .engineNotQuiescent
      else .none

variable {r : AlignRunner Src Ir} {e : OutputEngine Src} {h : AlignView}

/-- Nothing blocks a press only if nobody else has the output. -/
theorem unheld_of_blocker (hnone : blocker e r h = .none) : h.environment.captureBusy = false := by
  rw [blocker] at hnone
  iterate 5 obtain ⟨-, hnone⟩ := EqVerifyRunner.passed_of_ite_eq (by decide) hnone
  obtain ⟨hcapture, -⟩ := EqVerifyRunner.passed_of_ite_eq (by decide) hnone
  exact Bool.eq_false_of_not_eq_true hcapture

/-- One turn of the loop of `supplyBoundIrs`: a response at another rate is ignored. -/
def supplyBoundIr (e : OutputEngine Src) (source : Source) (ir : Option (SweepWitness Ir))
    (fresh : AlignmentWizard Src Ir) : AlignmentWizard Src Ir :=
  match ir with
  | none => fresh
  | some ir =>
    if ir.sampleRate ≠ e.sampleRate then fresh else fresh.supplyImpulseResponse source ir.witness

/-- `supplyBoundIrs(fresh)`. -/
def supplyBoundIrs (e : OutputEngine Src) (r : AlignRunner Src Ir)
    (fresh : AlignmentWizard Src Ir) : AlignmentWizard Src Ir :=
  supplyBoundIr e .sub r.irSub (supplyBoundIr e .main r.irMain fresh)

/-- The wizard a press arms: the answers are replayed. The three that `press` dereferences are there,
since `blocker` found the answers complete. -/
def freshWizard (pinkNoise : UInt64 → ℚ → Src) (e : OutputEngine Src) (r : AlignRunner Src Ir)
    (h : AlignView) : AlignmentWizard Src Ir :=
  supplyBoundIrs e r
    { source := some (pinkSource pinkNoise h)
      config :=
        { mainOutputChannel := r.answers.mainOutput
          subOutputChannel := r.answers.subOutput
          sampleRate := e.sampleRate
          matchedPairAgreement := kAlignMatchedPairAgreement }
      highPassSide := r.answers.highPass
      topology := r.answers.topology
      inversion := r.answers.inversion
      seedHz := r.answers.seedHz
      seedAnswered := true }

/-- `press()`: whether a run was started, and what it left. -/
def press (pinkNoise : UInt64 → ℚ → Src) (e : OutputEngine Src) (r : AlignRunner Src Ir)
    (h : AlignView) : Bool × OutputEngine Src × AlignRunner Src Ir :=
  match r.blocker e h with
  | .none =>
    let armed := arm e (freshWizard pinkNoise e r h)
    if armed.2.refusal ≠ .none then
      (false, armed.1, { r with wizardRefusal := armed.2.refusal, refusal := .engineNotQuiescent })
    else
      (true, armed.1,
        markStepStart armed.1
          { r with
            wizard := some armed.2
            runAnswers := r.answers
            pressedFftSize := (h.pressLatest.map (·.fftSize)).getD 0
            pressedSampleRate := (h.pressLatest.map (·.sampleRate)).getD 0
            pressedAveraging := h.captureConfig.transferAveraging
            pressedEpoch := armed.1.outputEpoch
            pressedSynthetic := h.environment.synthetic
            refusal := .none
            outcome := .none
            cycleSamples := none
            cycleFromIr := false } h)
  | why => (false, e, { r with refusal := why })

/-- What `pressSum` asks for before it touches the engine: a verdict, with the coarse offset
answered, a device, and nobody else on it. -/
def sumWizard (r : AlignRunner Src Ir) (h : AlignView) : Option (AlignmentWizard Src Ir) :=
  if !h.attached then none
  else
    r.wizard.filter fun w =>
      w.verdict.isSome && (w.step = .computed || w.step = .askingPolarity) &&
        (h.environment.synthetic || h.environment.deviceRunning) && !h.environment.captureBusy

/-- `pressSum()`. -/
def pressSum (pinkNoise : UInt64 → ℚ → Src) (e : OutputEngine Src) (r : AlignRunner Src Ir)
    (h : AlignView) : Bool × OutputEngine Src × AlignRunner Src Ir :=
  match r.sumWizard h with
  | none => (false, e, r)
  | some w =>
    match e.setSource (some (pinkSource pinkNoise h)) with
    | (false, e') => (false, e', r)
    | (true, e') =>
      let begun := beginMeasuredSum e' w
      if begun.2.refusal ≠ .none then
        (false, begun.1, { r with wizard := some begun.2, wizardRefusal := begun.2.refusal })
      else
        (true, begun.1,
          markStepStart begun.1
            { r with
              wizard := some begun.2
              pressedEpoch := begun.1.outputEpoch
              pressedSynthetic := h.environment.synthetic
              outcome := .none } h)

/-- `answerCycleMs(milliseconds)`, of a finite number. -/
def answerCycleMs (r : AlignRunner Src Ir) (milliseconds : ℚ) : AlignRunner Src Ir :=
  match r.wizard.filter fun w => w.step = .askingCycle || w.step = .computed with
  | none => r
  | some w =>
    let samples := llround (milliseconds * r.pressedSampleRate / 1000)
    { r with
      wizard := some (w.answerCycleOffsetSamples (some samples))
      cycleFromIr := false
      cycleSamples := some samples }

/-- `bindIr(source, traceId, ir)`, less the name. -/
def bindIr (r : AlignRunner Src Ir) (source : Source) (ir : Option (SweepWitness Ir)) :
    AlignRunner Src Ir :=
  match source with
  | .main => { r with irMain := ir }
  | .sub => { r with irSub := ir }

/-! ### The poll -/

/-- The dwell in seconds, by the grid that was pressed. -/
def dwellSeconds (r : AlignRunner Src Ir) (h : AlignView) : ℚ :=
  transferDwellSeconds h.captureConfig r.pressedFftSize r.pressedSampleRate

/-- Samples rendered since the step's solo: none if the counter has gone back. -/
def renderedSince (e : OutputEngine Src) (r : AlignRunner Src Ir) : ℕ :=
  if r.stepStartRendered ≤ e.renderedSamples then
    (e.renderedSamples - r.stepStartRendered).toNat
  else 0

/-- What `trySubmit` makes of the world. -/
inductive TryResult
  /-- Not yet; the run may time out. -/
  | wait
  /-- The snapshot is on another grid, or averaged in another way. -/
  | settingsChanged
  | submit (snapshot : Snapshot) (tr : Trace)

/-- The decision of `trySubmit`, for the wizard after its own `poll`. -/
def tryResult (e : OutputEngine Src) (r : AlignRunner Src Ir) (w : AlignmentWizard Src Ir)
    (h : AlignView) : TryResult :=
  if !w.windowOpen || decide ((renderedSince e r : ℚ) < r.dwellSeconds h * e.sampleRate) then .wait
  else
    match h.latest.bind fun s => s.transfer.map fun t => (s, t) with
    | none => .wait
    | some (snapshot, transfer) =>
      if transfer.coherence.isNone then .wait
      else if snapshot.fftSize ≠ r.pressedFftSize ∨ snapshot.sampleRate ≠ r.pressedSampleRate ∨
          h.captureConfig.transferAveraging ≠ r.pressedAveraging then .settingsChanged
      else
        match h.freeze snapshot with
        | none => .wait
        | some tr => .submit snapshot tr

/-- `afterSubmit(asked)`. -/
def afterSubmit (e : OutputEngine Src) (r : AlignRunner Src Ir) (w : AlignmentWizard Src Ir)
    (h : AlignView) : OutputEngine Src × AlignRunner Src Ir :=
  let r := { r with wizard := some w }
  if w.step = .measuringLow then (e, markStepStart e r h)
  else
    match w.verdict with
    | none => abort e { r with wizardRefusal := w.refusal } .settingsChanged
    | some verdict =>
      if w.step = .answering then abort e { r with wizardRefusal := w.refusal } .settingsChanged
      else if verdict.fitRefusal ≠ .none then (e, { r with outcome := .fitRefused })
      else if w.step = .askingCycle then (e, { r with outcome := .measured })
      else (e, { r with outcome := .measured, cycleFromIr := w.cycleFromIr })

/-- The rest of `trySubmit`, once there is a capture. -/
def submit (dsp : AlignDsp Ir) (e : OutputEngine Src) (r : AlignRunner Src Ir)
    (w : AlignmentWizard Src Ir) (h : AlignView) (tr : Trace) :
    OutputEngine Src × AlignRunner Src Ir :=
  if w.step = .measuringSum then
    let submitted := submitMeasuredSum e w tr
    (submitted.1, { r with wizard := some submitted.2, outcome := .sumMeasured })
  else
    let submitted := submitCapture dsp e w tr
    if submitted.2.refusal ≠ .none ∧ submitted.2.step = w.step then
      abort submitted.1
        { r with wizard := some submitted.2, wizardRefusal := submitted.2.refusal } .settingsChanged
    else afterSubmit submitted.1 r submitted.2 h

/-- `trySubmit(now)`, for the wizard the runner holds. -/
def trySubmit (dsp : AlignDsp Ir) (e : OutputEngine Src) (r : AlignRunner Src Ir)
    (w : AlignmentWizard Src Ir) (h : AlignView) : OutputEngine Src × AlignRunner Src Ir :=
  let w := AlignmentWizard.poll e w
  let r := { r with wizard := some w }
  match tryResult e r w h with
  | .wait =>
    if captureTimedOut r.stepStartMs h.nowMs (r.dwellSeconds h * 1000 + kAlignTimeoutMs) then
      abort e r .timedOut
    else (e, r)
  | .settingsChanged => abort e r .settingsChanged
  | .submit _ tr => submit dsp e r w h tr

/-- `poll()`. -/
def poll (dsp : AlignDsp Ir) (e : OutputEngine Src) (r : AlignRunner Src Ir) (h : AlignView) :
    OutputEngine Src × AlignRunner Src Ir :=
  match r.wizard.filter fun w => decide w.Measuring with
  | none => (e, r)
  | some w =>
    if h.environment.synthetic ≠ r.pressedSynthetic then abort e r .outputChanged
    else if !h.environment.synthetic && !h.environment.deviceRunning then abort e r .deviceStopped
    else if e.outputEpoch ≠ r.pressedEpoch then abort e r .outputChanged
    else trySubmit dsp e r w h

/-! ### What a poll submits -/

/-- The step that a poll submits a capture for, and the snapshot it is made from, if it does. -/
def submission (e : OutputEngine Src) (r : AlignRunner Src Ir) (h : AlignView) :
    Option (WizardStep × Snapshot) :=
  match r.wizard.filter fun w => decide w.Measuring with
  | none => none
  | some w =>
    if h.environment.synthetic ≠ r.pressedSynthetic then none
    else if !h.environment.synthetic && !h.environment.deviceRunning then none
    else if e.outputEpoch ≠ r.pressedEpoch then none
    else
      match tryResult e r (AlignmentWizard.poll e w) h with
      | .submit snapshot _ => some (w.step, snapshot)
      | _ => none

/-- What a submission has been checked for: the window, the dwell by the engine's clock, coherence,
and the settings of the press. -/
theorem tryResult_submit {w : AlignmentWizard Src Ir} {snapshot : Snapshot} {tr : Trace}
    (hresult : tryResult e r w h = .submit snapshot tr) :
    w.windowOpen = true ∧ r.dwellSeconds h * e.sampleRate ≤ renderedSince e r ∧
      h.latest = some snapshot ∧
      (∃ transfer, snapshot.transfer = some transfer ∧ transfer.coherence.isSome) ∧
      snapshot.fftSize = r.pressedFftSize ∧ snapshot.sampleRate = r.pressedSampleRate ∧
      h.freeze snapshot = some tr := by
  rw [tryResult] at hresult
  split at hresult
  · cases hresult
  · rename_i hready
    rw [Bool.or_eq_true, not_or, decide_eq_true_iff, not_lt, Bool.not_eq_true',
      Bool.not_eq_false] at hready
    split at hresult
    · cases hresult
    · rename_i latest transfer hlatest
      obtain ⟨s, hs, hst⟩ := Option.bind_eq_some_iff.mp hlatest
      obtain ⟨t, ht, hpair⟩ := Option.map_eq_some_iff.mp hst
      cases hpair
      split at hresult
      · cases hresult
      · rename_i hcoherence
        split at hresult
        · cases hresult
        · rename_i hsettings
          push Not at hsettings
          split at hresult
          · cases hresult
          · rename_i hfreeze
            cases hresult
            exact ⟨hready.1, hready.2, hs,
              ⟨transfer, ht, by simpa [Option.isSome_iff_ne_none] using hcoherence⟩, hsettings.1,
              hsettings.2.1, hfreeze⟩

/-- What is submitted is the latest snapshot. -/
theorem latest_of_submission
    {step : WizardStep} {snapshot : Snapshot} (hsub : submission e r h = some (step, snapshot)) :
    h.latest = some snapshot ∧ snapshot.transfer.isSome := by
  rw [submission] at hsub
  split at hsub
  · cases hsub
  · rename_i w _
    split at hsub
    · cases hsub
    · split at hsub
      · cases hsub
      · split at hsub
        · cases hsub
        · split at hsub
          · rename_i hresult
            cases hsub
            obtain ⟨-, -, hlatest, ⟨transfer, htransfer, -⟩, -⟩ := tryResult_submit hresult
            exact ⟨hlatest, by rw [htransfer]; rfl⟩
          · cases hsub

end AlignRunner

end RtaTool
