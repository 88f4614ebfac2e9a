import RtaTool.Measure.CapturePath
import RtaTool.Measure.EqVerify

/-!
# LOCATE, SWEEP and CAL

Three features capture through the one accumulator: LOCATE plays noise and measures a delay, SWEEP
plays a sweep and measures an impulse response, CAL plays nothing and measures a calibrator's tone.
Each is pressed, and then advances when the message thread polls it. `outputBusy` lets one of them
in at a time, and none while GEN, VERIFY or ALIGN has the output.

What a poll hands on is to be one stretch of one pair of channels, taken in the session and the
mode of the press, with the feature's own source playing. Each poll looks at some of what could
have spoilt that: SWEEP at the output epoch, the mode, the resync sequence and the drop count,
LOCATE at the last two, CAL at none of them.

A press, a poll, a switch of the input mode, a restart of the device, a block and one rendering are
one step each; the analysis thread's steps are those of `CapturePath`. `pressed` is bookkeeping.

## Main definitions

* `PressRun`, `PressAct`, `pressRuns` -- the machine
* `pollLocatePipeline`, `startOn`, `pollSweep`, `pollCalibrationPipeline` -- the features
* `HandsOverWhole` -- the property, on steps
-/

namespace RtaTool

/-- The clients of the output that capture nothing. -/
inductive OutputClient
  | verify
  | align
  | generator
  deriving DecidableEq, Repr

/-- What the engine's source is. -/
inductive Excitation
  | locate
  | sweep
  | other (client : OutputClient)
  deriving DecidableEq, Repr

instance : AudioSource Excitation where
  process src _ := src

/-- The moment of a press. -/
structure Press where
  session : ℕ := 0
  synthetic : Bool := false
  outputEpoch : ℕ := 0

/-- `MainComponent`, as far as LOCATE goes. -/
structure LocateState where
  locateWaitingForSettle : Bool := false
  locateCaptureArmed : Bool := false
  locateResync : ℕ := 0
  locateDrops : ℕ := 0
  lastHandledCapture : Option ℕ := none
  pressed : Press := {}

/-- `MainComponentSweep::State`. -/
inductive SweepPhase
  | idle
  | preRoll
  | playing
  | analysing
  deriving DecidableEq, Repr

/-- `MainComponentSweep`. -/
structure SweepState where
  state : SweepPhase := .idle
  armedEpoch : ℕ := 0
  armedResync : ℕ := 0
  armedDrops : ℕ := 0
  armedSynthetic : Bool := false
  armedAtMs : ℚ := 0
  timeoutMs : ℚ := 0
  lastHandled : Option ℕ := none
  pressed : Press := {}

/-- `MainComponent`, as far as CAL goes. -/
structure CalibrationState where
  calibrationCaptureArmed : Bool := false
  calibrationCaptureIsStart : Bool := false
  hasStartCheck : Bool := false
  calibrationCaptureArmedAtMs : ℚ := 0
  lastHandledCalibrationCapture : Option ℕ := none
  calibrationChannel : ℤ := -1
  calibrationStartChannel : ℤ := -1
  pressed : Press := {}

/-- The capture path, the output engine and the three features. `outputHeld` is ALIGN, VERIFY or
GEN being busy. -/
structure PressRun where
  path : CapturePath
  engine : OutputEngine Excitation
  locate : LocateState := {}
  sweep : SweepState := {}
  cal : CalibrationState := {}
  outputHeld : Bool := false

/-- What can happen next. `startOn` comes with what the press asks for and what the host answers:
the output and whether it was named, how many there are, the outputs of the drive, and how long the
sweep and its tail are. -/
inductive PressAct
  | push (numSamples : ℕ)
  | render (numOutputChannels numSamples : ℤ)
  | analysis (now : ℕ)
  | setRole (channel : ℤ) (role : ChannelRole)
  | setTransferFunction (channel tf : ℤ)
  | restart (sampleRate : ℚ) (inputs outputs : ℤ)
  | stop
  | setSyntheticMode (enabled : Bool)
  | locateClicked (outputs : List ℤ)
  | pollLocate
  | startOn (outputChannel : ℤ) (named : Bool) (outputChannels : ℤ) (driveOutputs : List ℤ)
      (durationSec tailSeconds nowMs : ℚ)
  | pollSweep (nowMs : ℚ) (outcome : Bool)
  | calibrationStartClicked (nowMs : ℚ)
  | calibrationEndClicked (nowMs : ℚ)
  | pollCalibration (nowMs : ℚ)
  | holdOutput (client : OutputClient)
  | releaseOutput

namespace PressRun

/-- The moment it is now. -/
def press (s : PressRun) : Press where
  session := s.path.bus.epoch
  synthetic := s.path.synthetic
  outputEpoch := s.engine.outputEpoch

/-- `sweep_.busy()`. -/
def sweepBusy (s : PressRun) : Bool := s.sweep.state != .idle

/-- `outputBusy()`. -/
def outputBusy (s : PressRun) : Bool :=
  s.locate.locateWaitingForSettle || s.locate.locateCaptureArmed ||
    s.cal.calibrationCaptureArmed || s.sweepBusy || s.outputHeld

/-! ### LOCATE -/

/-- `locateClicked()`; `outputs` is what the drive names. -/
def locateClicked (s : PressRun) (outputs : List ℤ) : PressRun :=
  if s.outputBusy then s
  else
    let set := s.engine.setSource (some .locate)
    if !set.1 then s
    else
      { s with
        engine := (set.2.routeOutputSet (if outputs = [] then [0] else outputs)).armSource
        locate := { s.locate with locateWaitingForSettle := true, pressed := s.press } }

/-- `cancelLocate()`. -/
def cancelLocate (s : PressRun) : PressRun :=
  if !s.locate.locateWaitingForSettle && !s.locate.locateCaptureArmed then s
  else
    { s with
      engine := s.engine.disarmSource
      locate := { s.locate with locateWaitingForSettle := false, locateCaptureArmed := false } }

/-- `kSettleSamplesAt48k`. -/
def kSettleSamplesAt48k : ℚ := 480

/-- `kCaptureLength`. -/
def kCaptureLength : ℕ := 8192

/-- The source has been rendered for as long as it takes to settle. -/
def locateSettled (s : PressRun) : Prop :=
  ¬ (s.engine.renderedSamples.toNat : ℚ) < kSettleSamplesAt48k * (s.engine.sampleRate / 48000)

instance (s : PressRun) : Decidable s.locateSettled := inferInstanceAs (Decidable (¬ _))

/-- The poll is about to arm the capture. -/
def locateArms (s : PressRun) : Prop :=
  s.locate.locateWaitingForSettle = true ∧ s.locateSettled ∧ s.path.bus.resyncPending = false

instance (s : PressRun) : Decidable s.locateArms := inferInstanceAs (Decidable (_ ∧ _ ∧ _))

/-- The capture is armed, and the counters are read. -/
def armLocate (s : PressRun) : PressRun :=
  let path := s.path.armLocateCapture 0 kCaptureLength
  { s with
    path := path
    locate := { s.locate with
      locateResync := path.bus.resyncSeq
      locateDrops := path.bus.totalDrops
      locateWaitingForSettle := false
      locateCaptureArmed := true } }

/-- The second half of `pollLocatePipeline`, and what it hands to `suggestDelay`. -/
def pollLocateCapture (s : PressRun) : PressRun × Option (LocateCapture CapturedFrame) :=
  if !s.locate.locateCaptureArmed then (s, none)
  else if s.path.bus.resyncSeq ≠ s.locate.locateResync then (s.cancelLocate, none)
  else if s.path.bus.totalDrops ≠ s.locate.locateDrops then (s.cancelLocate, none)
  else
    match s.path.tap.locateCapture with
    | none => (s, none)
    | some capture =>
      if s.locate.lastHandledCapture = some capture.1 then (s, none)
      else
        ({ s with
            engine := s.engine.disarmSource
            locate := { s.locate with
              lastHandledCapture := some capture.1
              locateCaptureArmed := false } },
          some capture.2)

/-- `pollLocatePipeline()`. -/
def pollLocatePipeline (s : PressRun) : PressRun × Option (LocateCapture CapturedFrame) :=
  if s.locate.locateWaitingForSettle then
    if ¬ s.locateSettled then (s, none)
    else if s.path.bus.resyncPending then (s, none)
    else s.armLocate.pollLocateCapture
  else s.pollLocateCapture

/-! ### SWEEP -/

/-- `kPreRollSeconds`. -/
def kPreRollSeconds : ℚ := 1

/-- `kSettleMs`. -/
def kSettleMs : ℚ := 100

/-- `timeoutSlackMs_`. -/
def timeoutSlackMs : ℚ := 5000

/-- A sweep is armed, with its own source installed and not playing yet. -/
def armSweep (s : PressRun) (engine : OutputEngine Excitation) (outputs : List ℤ)
    (captureSamples : ℕ) (nowMs : ℚ) : PressRun :=
  let path := s.path.armLocateCapture 0 captureSamples
  { s with
    path := path
    engine := engine.routeOutputSet outputs
    sweep := { s.sweep with
      state := .preRoll
      armedEpoch := engine.outputEpoch
      armedResync := path.bus.resyncSeq
      armedDrops := path.bus.totalDrops
      armedSynthetic := path.synthetic
      armedAtMs := nowMs
      timeoutMs := 1000 * captureSamples / engine.sampleRate + timeoutSlackMs
      pressed := s.press } }

/-- `startOn(outputChannel, requester, tailSeconds)`. -/
def startOn (s : PressRun) (outputChannel : ℤ) (named : Bool) (outputChannels : ℤ)
    (driveOutputs : List ℤ) (durationSec tailSeconds nowMs : ℚ) : PressRun :=
  if s.sweepBusy then s
  else if s.outputBusy then s
  else if named = true ∧ (outputChannel < 0 ∨ outputChannels ≤ outputChannel) then s
  else if !s.engine.sourceIsQuiescent then s
  else if ¬ 0 < s.engine.sampleRate ∨ s.path.bus.sampleRate ≠ s.engine.sampleRate then s
  else if s.path.bus.resyncPending then s
  else
    let set := s.engine.setSource (some .sweep)
    if !set.1 then s
    else
      s.armSweep set.2
        (if named = true ∨ driveOutputs = [] then [outputChannel] else driveOutputs)
        ⌈(kPreRollSeconds + durationSec + tailSeconds) * s.engine.sampleRate⌉.toNat nowMs

/-- `abort(why)`. -/
def abortSweep (s : PressRun) : PressRun :=
  { s with engine := s.engine.disarmSource, sweep := { s.sweep with state := .idle } }

/-- `poll()` before the sweep plays. -/
def pollPreRoll (s : PressRun) (nowMs : ℚ) : PressRun :=
  if captureTimedOut s.sweep.armedAtMs nowMs s.sweep.timeoutMs then s.abortSweep
  else if nowMs - s.sweep.armedAtMs < kSettleMs then s
  else { s with engine := s.engine.armSource, sweep := { s.sweep with state := .playing } }

/-- `poll()` while it plays, and what it hands to the worker. -/
def pollPlaying (s : PressRun) (nowMs : ℚ) : PressRun × Option (LocateCapture CapturedFrame) :=
  match s.path.tap.locateCapture with
  | some capture =>
    if s.sweep.lastHandled ≠ some capture.1 then
      -- `startAnalysis()` lets go of the capture again
      ({ s with
          engine := s.engine.disarmSource
          sweep := { s.sweep with lastHandled := none, state := .analysing } },
        some capture.2)
    else if captureTimedOut s.sweep.armedAtMs nowMs s.sweep.timeoutMs then (s.abortSweep, none)
    else (s, none)
  | none =>
    if captureTimedOut s.sweep.armedAtMs nowMs s.sweep.timeoutMs then (s.abortSweep, none)
    else (s, none)

/-- Something the sweep looks at has changed since it was armed. -/
def sweepSpoilt (s : PressRun) : Prop :=
  s.engine.outputEpoch ≠ s.sweep.armedEpoch ∨ s.path.synthetic ≠ s.sweep.armedSynthetic ∨
    s.path.bus.resyncSeq ≠ s.sweep.armedResync ∨ s.path.bus.totalDrops ≠ s.sweep.armedDrops

instance (s : PressRun) : Decidable s.sweepSpoilt := inferInstanceAs (Decidable (_ ∨ _ ∨ _ ∨ _))

/-- `poll()`; `outcome` is whether the worker has one. -/
def pollSweep (s : PressRun) (nowMs : ℚ) (outcome : Bool) :
    PressRun × Option (LocateCapture CapturedFrame) :=
  match s.sweep.state with
  | .idle => (s, none)
  | .analysing =>
    if outcome then ({ s with sweep := { s.sweep with state := .idle } }, none) else (s, none)
  | .preRoll => if s.sweepSpoilt then (s.abortSweep, none) else (s.pollPreRoll nowMs, none)
  | .playing => if s.sweepSpoilt then (s.abortSweep, none) else s.pollPlaying nowMs

/-! ### CAL -/

/-- `kCalibrationRouteIndex`. -/
def kCalibrationRouteIndex : ℤ := 0

/-- `kCalibrationCaptureLength`. -/
def kCalibrationCaptureLength : ℕ := 8192

/-- `kCalibrationCaptureTimeoutMs`. -/
def kCalibrationCaptureTimeoutMs : ℚ := 5000

/-- `calibrationMeasurementChannel(plan, routeIndex)`. -/
def calibrationMeasurementChannel (plan : RoutingPlan) (routeIndex : ℤ) : Option ℕ :=
  if routeIndex < 0 then none else plan.routes[routeIndex.toNat]?.map (·.measurementChannel)

/-- A check is armed. -/
def armCalibration (s : PressRun) (isStart : Bool) (nowMs : ℚ) : PressRun :=
  { s with
    path := s.path.armLocateCapture kCalibrationRouteIndex kCalibrationCaptureLength
    cal := { s.cal with
      calibrationCaptureArmed := true
      calibrationCaptureIsStart := isStart
      calibrationCaptureArmedAtMs := nowMs
      pressed := s.press } }

/-- `calibrationStartClicked()`. -/
def calibrationStartClicked (s : PressRun) (nowMs : ℚ) : PressRun :=
  if s.outputBusy then s else s.armCalibration true nowMs

/-- `calibrationEndClicked()`. -/
def calibrationEndClicked (s : PressRun) (nowMs : ℚ) : PressRun :=
  if s.outputBusy then s
  else if !s.cal.hasStartCheck then s
  else s.armCalibration false nowMs

/-- A check is recorded, of the channel that route 0 measures now. `recordStartCheck` takes no
empty capture, and none at a rate that is not positive. -/
def recordCheck (s : PressRun) (capture : ℕ × LocateCapture CapturedFrame) : CalibrationState :=
  let channel : ℤ :=
    ((calibrationMeasurementChannel s.path.plan kCalibrationRouteIndex).map (↑·)).getD (-1)
  let recorded := { s.cal with
    lastHandledCalibrationCapture := some capture.1
    calibrationCaptureArmed := false
    calibrationChannel := channel }
  if s.cal.calibrationCaptureIsStart then
    { recorded with
      calibrationStartChannel := channel
      hasStartCheck := s.cal.hasStartCheck ||
        (!capture.2.measurement.isEmpty && decide (0 < s.path.bus.sampleRate)) }
  else recorded

/-- `pollCalibrationPipeline()`, and what it records as a check. -/
def pollCalibrationPipeline (s : PressRun) (nowMs : ℚ) :
    PressRun × Option (LocateCapture CapturedFrame) :=
  let waited : PressRun :=
    if captureTimedOut s.cal.calibrationCaptureArmedAtMs nowMs kCalibrationCaptureTimeoutMs then
      { s with cal := { s.cal with calibrationCaptureArmed := false } }
    else s
  if !s.cal.calibrationCaptureArmed then (s, none)
  else
    match s.path.tap.locateCapture with
    | some capture =>
      if s.cal.lastHandledCalibrationCapture ≠ some capture.1 then
        ({ s with cal := s.recordCheck capture }, some capture.2)
      else (waited, none)
    | none => (waited, none)

/-! ### The rest of the app -/

/-- `audioDeviceAboutToStart(device)`. -/
def restart (s : PressRun) (sampleRate : ℚ) (inputs outputs : ℤ) : PressRun :=
  { s with
    path := { s.path with bus := (s.path.bus.prepare sampleRate inputs).setActive true }
    engine := s.engine.prepare sampleRate outputs }

/-- `SyntheticInput::Config::sampleRate`. -/
def kSyntheticSampleRate : ℚ := 48000

/-- `SyntheticInput::kChannels`, and as many outputs. -/
def kSyntheticChannels : ℤ := 2

/-- `setSyntheticMode(true)` from live input. -/
def enterSynthetic (s : PressRun) : PressRun :=
  let bus := ((s.path.bus.setActive false).prepare kSyntheticSampleRate kSyntheticChannels).setActive
    true
  { s with
    path := { s.path with
      bus := (bus.setRole 0 .measurement).setRole 1 .reference
      synthetic := true }
    engine := s.engine.prepare kSyntheticSampleRate kSyntheticChannels }

/-- `setSyntheticMode(false)` from synthetic input. -/
def leaveSynthetic (s : PressRun) : PressRun :=
  { s with
    path := { s.path with
      bus := ((s.path.bus.setActive false).setRole 0 .unused).setRole 1 .unused
      synthetic := false } }

/-- `setSyntheticMode(enabled)`. -/
def setSyntheticMode (s : PressRun) (enabled : Bool) : PressRun :=
  if enabled = s.path.synthetic then s
  else if enabled then s.cancelLocate.enterSynthetic
  else s.cancelLocate.leaveSynthetic

/-- ALIGN, VERIFY or GEN takes the output. -/
def holdOutput (s : PressRun) (client : OutputClient) : PressRun :=
  if s.outputBusy then s
  else
    let set := s.engine.setSource (some (.other client))
    if !set.1 then s else { s with engine := set.2.armSource, outputHeld := true }

/-- And lets go of it. -/
def releaseOutput (s : PressRun) : PressRun :=
  if s.outputHeld then { s with engine := s.engine.disarmSource, outputHeld := false } else s

/-- A launch of the app on a bus to which the analysis thread has attached itself. -/
def start (bus : CaptureBus CapturedFrame) (engine : OutputEngine Excitation) (synthetic : Bool) :
    PressRun where
  path :=
    { bus := bus
      synthetic := synthetic
      arm := ⟨bus.epoch, synthetic, bus.resyncSeq, bus.preparedChannels, bus.drops⟩ }
  engine := engine

/-- What a step hands to `suggestDelay`, to the sweep's worker or to the calibration session. -/
def handed (s : PressRun) : PressAct → Option (LocateCapture CapturedFrame)
  | .pollLocate => s.pollLocatePipeline.2
  | .pollSweep nowMs outcome => (s.pollSweep nowMs outcome).2
  | .pollCalibration nowMs => (s.pollCalibrationPipeline nowMs).2
  | _ => none

end PressRun

/-- The app, with hops of `hop` samples. A device is restarted or stopped only while the input is
live. -/
def pressRuns (hop : ℕ) : Machine PressRun PressAct where
  init s := ∃ bus engine synthetic, bus.consumerAttached = true ∧ s = .start bus engine synthetic
  step s
    | .push numSamples => some { s with path := s.path.push numSamples }
    | .render numOutputChannels numSamples =>
      some { s with engine := s.engine.render true numOutputChannels numSamples }
    | .analysis now => some { s with path := s.path.analysis hop now }
    | .setRole channel role =>
      some { s with path := { s.path with bus := s.path.bus.setRole channel role } }
    | .setTransferFunction channel tf =>
      some { s with path := { s.path with bus := s.path.bus.setTransferFunction channel tf } }
    | .restart sampleRate inputs outputs =>
      if s.path.synthetic then none else some (s.restart sampleRate inputs outputs)
    | .stop =>
      if s.path.synthetic then none
      else some { s with path := { s.path with bus := s.path.bus.setActive false } }
    | .setSyntheticMode enabled => some (s.setSyntheticMode enabled)
    | .locateClicked outputs => some (s.locateClicked outputs)
    | .pollLocate => some s.pollLocatePipeline.1
    | .startOn outputChannel named outputChannels driveOutputs durationSec tailSeconds nowMs =>
      some (s.startOn outputChannel named outputChannels driveOutputs durationSec tailSeconds nowMs)
    | .pollSweep nowMs outcome => some (s.pollSweep nowMs outcome).1
    | .calibrationStartClicked nowMs => some (s.calibrationStartClicked nowMs)
    | .calibrationEndClicked nowMs => some (s.calibrationEndClicked nowMs)
    | .pollCalibration nowMs => some (s.pollCalibrationPipeline nowMs).1
    | .holdOutput client => some (s.holdOutput client)
    | .releaseOutput => some s.releaseOutput

/-! ### The property -/

namespace PressRun

/-- A feature's own source is in the slot, for the device it was pressed on. -/
def Installed (s : PressRun) (source : Excitation) : Prop :=
  s.engine.slot = some source ∧ s.engine.slotEpoch = s.engine.outputEpoch

/-- LOCATE has been pressed and has not handed on a capture. -/
def locateBusy (s : PressRun) : Prop :=
  s.locate.locateWaitingForSettle = true ∨ s.locate.locateCaptureArmed = true

/-- SWEEP has been pressed and has not handed on a capture. -/
def sweepArmed (s : PressRun) : Prop := s.sweep.state = .preRoll ∨ s.sweep.state = .playing

/-- As long as the output epoch is that of the press, the source of the feature that was pressed is
in the slot, and armed: LOCATE's from the press on, SWEEP's from when it plays. -/
def Excites (s : PressRun) : Prop :=
  (s.locateBusy → s.engine.outputEpoch = s.locate.pressed.outputEpoch →
      s.Installed .locate ∧ s.engine.armed = true) ∧
    (s.sweepArmed → s.engine.outputEpoch = s.sweep.armedEpoch →
      s.Installed .sweep ∧ (s.sweep.state = .playing → s.engine.armed = true))

/-- What a capture owes to the step that hands it on. -/
def Owed (s : PressRun) (t : PressRun) (capture : LocateCapture CapturedFrame) : PressAct → Prop
  | .pollLocate =>
    s.engine.outputEpoch = s.locate.pressed.outputEpoch ∧
      ∃ route first,
        capture.IsStretch s.locate.pressed.session s.locate.pressed.synthetic route first
  | .pollSweep _ _ =>
    s.engine.outputEpoch = s.sweep.pressed.outputEpoch ∧
      ∃ route first,
        capture.IsStretch s.sweep.pressed.session s.sweep.pressed.synthetic route first
  | .pollCalibration _ =>
    ∃ route first,
      capture.IsStretch s.cal.pressed.session s.cal.pressed.synthetic route first ∧
        t.cal.calibrationChannel = route.measurementChannel
  | _ => True

/-- Every capture that is handed on is one stretch of one pair of channels in the session and mode
of the press, CAL attributes it to the channel it was measured on, and the source of LOCATE and of
SWEEP is what excites it. -/
def HandsOverWhole (s : PressRun) (a : PressAct) (t : PressRun) : Prop :=
  s.Excites ∧ ∀ capture, s.handed a = some capture → s.Owed t capture a

end PressRun

end RtaTool
