import RtaTool.Dsp.DualFftEngine
import RtaTool.Eq.EqInput
import RtaTool.Measure.OutputPolicy
import RtaTool.Trace.Trace

/-!
# The correction check and its runner

`EqVerify` plays pink noise on one set of outputs, waits out the settle time, takes one snapshot,
stops and waits for the ramp. `EqVerifyRunner` owns one such check at a time: it decides whether a
press may start one, and on every poll moves it along, waits for the transfer estimate to be of the
excitation only, submits the snapshot, or gives up.

The runner reads the world through its host: whether the device runs, the latest published
snapshot, the capture settings, the clock, and the pane's model. All of that is one record here,
`HostView`, handed to each call; it may be different at every call. The comparison itself is
floating point over the columns and is a parameter, `compare`.

Left out: status texts, and the trace the runner files in the library after a submission, which no
decision of the run depends on.

## Main definitions

* `EqVerify`, `EqVerifyRunner`, `HostView`
* `EqVerifyRunner.blocker`, `EqVerifyRunner.press`, `EqVerifyRunner.poll`, `trySubmit`

## Main results

* `EqVerifyRunner.press_of_accepts`, `EqVerifyRunner.press_of_not_accepts`,
  `EqVerifyRunner.poll_cases` -- everything each call can do
* `EqVerifyRunner.poll_submits_iff` -- exactly when a poll submits
-/

namespace RtaTool

open OutputEngine

/-! ### The world the runner reads -/

/-- The part of `CaptureConfig` a dwell depends on. -/
structure CaptureConfig where
  transferAveraging : TransferAveraging := .fifo
  transferFifoDepth : ℕ := 16

/-- The transfer half of a published snapshot. -/
structure TransferEstimate where
  magnitudeDb : List ℚ
  coherence : Option (List ℚ)
  effectiveAverages : ℚ

/-- A published snapshot. -/
structure Snapshot where
  fftSize : ℕ
  sampleRate : ℚ
  transfer : Option TransferEstimate

/-- `EqVerifyEnvironment`. -/
structure EqVerifyEnvironment where
  synthetic : Bool := false
  deviceRunning : Bool := false
  captureBusy : Bool := false
  generatorPlaying : Bool := false

/-- `MeasurementDrive`. -/
structure MeasurementDrive where
  levelDb : ℚ
  outputs : List ℤ

/-- `eq::FilterSpec`. -/
structure FilterSpec where
  type : FilterType
  fcHz : ℚ
  q : ℚ
  gainDb : ℚ
  deriving DecidableEq

/-- `CommittedFilter`. -/
structure CommittedFilter where
  spec : FilterSpec
  applied : Bool
  deriving DecidableEq

/-- What the runner reads of `EqPaneModel`. -/
structure EqPaneView where
  measurementId : Bytes
  sampleRate : ℚ
  measuredDb : List ℚ
  committed : List CommittedFilter
  ghostDb : List ℚ
  targetLineDb : List ℚ
  trusted : List Bool
  trustFloor : ℚ

namespace EqPaneView

/-- `hasMeasurement()`. -/
def hasMeasurement (m : EqPaneView) : Bool := decide (0 < m.sampleRate)

/-- `unappliedCount()`. -/
def unappliedCount (m : EqPaneView) : ℕ := m.committed.countP fun f => !f.applied

end EqPaneView

/-- Everything one call of the runner reads from outside. -/
structure HostView where
  attached : Bool
  environment : EqVerifyEnvironment
  latest : Option Snapshot
  captureConfig : CaptureConfig
  nowMs : ℚ
  drive : Option MeasurementDrive
  model : EqPaneView

/-- `captureTimedOut(armedAtMs, nowMs, timeoutMs)`. -/
def captureTimedOut (armedAtMs nowMs timeoutMs : ℚ) : Bool := decide (timeoutMs < nowMs - armedAtMs)

/-- `transferDwellSeconds(config, fftSize, sampleRate)`: after this long no frame from before the
excitation is left in the FIFO. -/
def transferDwellSeconds (config : CaptureConfig) (fftSize : ℕ) (sampleRate : ℚ) : ℚ :=
  config.transferFifoDepth * fftSize / sampleRate

/-! ### One check -/

/-- `VerifyState`. -/
inductive VerifyState
  | idle
  | waiting
  | measuring
  | settling
  | done
  deriving DecidableEq, Repr

/-- `VerifyRefusal`. -/
inductive VerifyRefusal
  | none
  | engineNotQuiescent
  | alreadyRunning
  deriving DecidableEq, Repr

/-- `VerifyTolerance`. -/
structure VerifyTolerance where
  corridorHalfWidthDb : ℚ := 3
  sigmaMultiple : ℚ := 3

/-- `EqVerify::Config`. -/
structure EqVerifyConfig where
  outputChannel : ℤ := 0
  outputs : List ℤ := []
  sampleRate : ℚ := 48000
  tolerance : VerifyTolerance := {}
  excitationDbFsRms : ℚ := -12
  noiseSeed : UInt64 := 1

/-- `EqVerify`, less the engine it holds a reference to. -/
structure EqVerify (Report : Type) where
  config : EqVerifyConfig
  state : VerifyState := .idle
  refusal : VerifyRefusal := .none
  report : Option Report := none

namespace EqVerify

variable {Src Report : Type}

/-- The settle time in samples, not rounded: the comparison is in floating point. -/
def settleSamples (config : EqVerifyConfig) : ℚ := 480 * (config.sampleRate / 48000)

/-- `arm()`. `pinkNoise` is the source's constructor. -/
def arm (pinkNoise : UInt64 → ℚ → Src) (e : OutputEngine Src) (v : EqVerify Report) :
    OutputEngine Src × EqVerify Report :=
  if v.state ≠ .idle then (e, { v with refusal := .alreadyRunning })
  else
    match e.setSource (some (pinkNoise v.config.noiseSeed v.config.excitationDbFsRms)) with
    | (false, e') => (e', { v with refusal := .engineNotQuiescent })
    | (true, e') =>
      let routed :=
        if v.config.outputs = [] then e'.soloOutput v.config.outputChannel
        else e'.routeOutputSet v.config.outputs
      (routed.armSource, { v with refusal := .none, state := .waiting })

/-- `poll()`. -/
def poll (e : OutputEngine Src) (v : EqVerify Report) : EqVerify Report :=
  match v.state with
  | .waiting =>
    if settleSamples v.config ≤ e.renderedSamples.toNat then { v with state := .measuring } else v
  | .settling => if e.sourceIsQuiescent then { v with state := .done } else v
  | _ => v

/-- `submitSnapshot(...)`: the comparison is taken and the excitation stops. -/
def submitSnapshot (e : OutputEngine Src) (v : EqVerify Report) (report : Report) :
    OutputEngine Src × EqVerify Report :=
  if v.state ≠ .measuring then (e, v)
  else (e.disarmSource, { v with report := some report, state := .settling })

/-- What the engine is like after an accepted `arm`. -/
structure ArmedFor (own : Src) (epoch : ℕ) (e : OutputEngine Src) : Prop where
  armed : e.armed = true
  slot : e.slot = some own
  slotEpoch : e.slotEpoch = epoch
  outputEpoch : e.outputEpoch = epoch

variable {e : OutputEngine Src}

theorem armedFor_routeEach {own : Src} {epoch : ℕ} (active : ℤ → Bool)
    (hslot : e.slot = some own) (hs : e.slotEpoch = epoch) (ho : e.outputEpoch = epoch) :
    ArmedFor own epoch (e.routeEach active).armSource where
  armed := rfl
  slot := (routeEach_slot active e).trans hslot
  slotEpoch := (routeEach_slotEpoch active e).trans hs
  outputEpoch := (routeEach_outputEpoch active e).trans ho

theorem arm_of_quiescent (pinkNoise : UInt64 → ℚ → Src)
    {v : EqVerify Report} (hstate : v.state = .idle) (hidle : e.publishedIdle = true)
    (harm : e.armed = false) :
    ∃ e', arm pinkNoise e v = (e', { v with refusal := .none, state := .waiting }) ∧
      ArmedFor (pinkNoise v.config.noiseSeed v.config.excitationDbFsRms) e.outputEpoch e' := by
  rw [arm, if_neg (by simp [hstate]), setSource_eq, if_pos ⟨hidle, harm⟩]
  dsimp only
  by_cases hout : v.config.outputs = []
  · rw [if_pos hout]
    exact ⟨_, rfl, armedFor_routeEach _ rfl rfl rfl⟩
  · rw [if_neg hout]
    exact ⟨_, rfl, armedFor_routeEach _ rfl rfl rfl⟩

theorem arm_of_not_quiescent (pinkNoise : UInt64 → ℚ → Src)
    {v : EqVerify Report} (hstate : v.state = .idle)
    (h : ¬ (e.publishedIdle = true ∧ e.armed = false)) :
    arm pinkNoise e v = (e, { v with refusal := .engineNotQuiescent }) := by
  rw [arm, if_neg (by simp [hstate]), setSource_eq, if_neg h]

end EqVerify

/-! ### The runner -/

/-- `VerifyBlock`. -/
inductive VerifyBlock
  | none
  | notAttached
  | noMeasurement
  | noUnappliedFilter
  | running
  | synthetic
  | deviceNotRunning
  | captureBusy
  | noTransfer
  | gridMismatch
  | exponentialAveraging
  | engineNotQuiescent
  | generatorPlaying
  deriving DecidableEq, Repr

/-- `VerifyOutcome`. -/
inductive VerifyOutcome
  | none
  | done
  | timedOut
  | deviceStopped
  | inputsChanged
  | settingsChanged
  | adopted
  deriving DecidableEq, Repr

/-- `EqVerifyRunner`, less what it holds references to. -/
structure EqVerifyRunner (Report : Type) where
  verify : Option (EqVerify Report) := none
  refusal : VerifyBlock := .none
  outcome : VerifyOutcome := .none
  armedAtMs : ℚ := 0
  measuringAtMs : ℚ := 0
  measuringRendered : UInt64 := 0
  pressedMeasurementId : Bytes := []
  pressedFilters : List CommittedFilter := []

namespace EqVerifyRunner

open EqVerify (ArmedFor)

variable {Src Report : Type}

/-- `kEqVerifyTimeoutMs`. -/
def kEqVerifyTimeoutMs : ℚ := 5000

/-- `stateForTest()`: the check's state, or `Idle` without one. -/
def state (r : EqVerifyRunner Report) : VerifyState := (r.verify.map (·.state)).getD .idle

/-- `busy()`. -/
def busy (r : EqVerifyRunner Report) : Bool :=
  r.state = .waiting || r.state = .measuring || r.state = .settling

/-- `boundFftSize()`: the FFT size the bound trace's bins imply. -/
def boundFftSize (m : EqPaneView) : ℕ :=
  if m.measuredDb.length < 2 then 0 else 2 * (m.measuredDb.length - 1)

/-- Whether a snapshot is on the bound trace's grid. -/
def sameGrid (m : EqPaneView) (snapshot : Snapshot) (transfer : TransferEstimate) : Bool :=
  snapshot.fftSize = boundFftSize m && snapshot.sampleRate = m.sampleRate &&
    transfer.magnitudeDb.length = m.measuredDb.length

/-- `blocker()`. -/
def blocker (r : EqVerifyRunner Report) (h : HostView) : VerifyBlock :=
  if !h.attached then .notAttached
  else if !h.model.hasMeasurement then .noMeasurement
  else if h.model.unappliedCount = 0 then .noUnappliedFilter
  else if r.busy then .running
  else if h.environment.synthetic then .synthetic
  else if !h.environment.deviceRunning then .deviceNotRunning
  else if h.environment.generatorPlaying then .generatorPlaying
  else if h.environment.captureBusy then .captureBusy
  else
    match h.latest.bind fun s => s.transfer.map fun t => (s, t) with
    | none => .noTransfer
    | some (snapshot, transfer) =>
      if !sameGrid h.model snapshot transfer then .gridMismatch
      else if h.captureConfig.transferAveraging = .exponential then .exponentialAveraging
      else .none

/-- The configuration `press` builds the check from. -/
def pressConfig (e : OutputEngine Src) (h : HostView) : EqVerifyConfig where
  outputChannel := 0
  sampleRate := if 0 < e.sampleRate then e.sampleRate else h.model.sampleRate
  excitationDbFsRms := (h.drive.map (·.levelDb)).getD (-12)
  outputs := (h.drive.map (·.outputs)).getD []

/-- `press()`: whether a check was started, and what it left. -/
def press (pinkNoise : UInt64 → ℚ → Src) (e : OutputEngine Src) (r : EqVerifyRunner Report)
    (h : HostView) : Bool × OutputEngine Src × EqVerifyRunner Report :=
  match r.blocker h with
  | .none =>
    let armed := EqVerify.arm pinkNoise e ({ config := pressConfig e h } : EqVerify Report)
    if armed.2.refusal ≠ .none then
      (false, armed.1, { r with refusal := .engineNotQuiescent })
    else
      (true, armed.1, { r with
        verify := some armed.2
        refusal := .none
        outcome := .none
        armedAtMs := h.nowMs
        pressedMeasurementId := h.model.measurementId
        pressedFilters := h.model.committed })
  | why => (false, e, { r with refusal := why })

/-- `abort(why, text)`: the excitation stops before anything else. -/
def abort (e : OutputEngine Src) (r : EqVerifyRunner Report) (why : VerifyOutcome) :
    OutputEngine Src × EqVerifyRunner Report :=
  (e.disarmSource, { r with verify := none, outcome := why })

/-- `inputsUnchanged()`. -/
def inputsUnchanged (r : EqVerifyRunner Report) (m : EqPaneView) : Bool :=
  m.measurementId = r.pressedMeasurementId && m.committed = r.pressedFilters

/-- The dwell in samples of the engine's clock. -/
def dwellSamples (e : OutputEngine Src) (h : HostView) : ℚ :=
  transferDwellSeconds h.captureConfig (boundFftSize h.model) h.model.sampleRate * e.sampleRate

/-- Samples rendered since Measuring was observed, by the counter: an unsigned difference. -/
def renderedSince (e : OutputEngine Src) (r : EqVerifyRunner Report) : ℕ :=
  (e.renderedSamples - r.measuringRendered).toNat

/-- The give-up branch of `trySubmit`: time out, or wait for the next poll. -/
def waitOrStall (e : OutputEngine Src) (r : EqVerifyRunner Report) (h : HostView) :
    OutputEngine Src × EqVerifyRunner Report :=
  let dwellMs :=
    transferDwellSeconds h.captureConfig (boundFftSize h.model) h.model.sampleRate * 1000
  if captureTimedOut r.measuringAtMs h.nowMs (dwellMs + kEqVerifyTimeoutMs) then
    abort e r .timedOut
  else (e, r)

/-- `trySubmit(now)`, for the check `v` the runner holds. -/
def trySubmit (compare : TransferEstimate → EqPaneView → VerifyTolerance → Report)
    (e : OutputEngine Src) (r : EqVerifyRunner Report) (v : EqVerify Report) (h : HostView) :
    OutputEngine Src × EqVerifyRunner Report :=
  if (renderedSince e r : ℚ) < dwellSamples e h then waitOrStall e r h
  else
    match h.latest.bind fun s => s.transfer.map fun t => (s, t) with
    | none => waitOrStall e r h
    | some (snapshot, transfer) =>
      if transfer.coherence.isNone then waitOrStall e r h
      else if !sameGrid h.model snapshot transfer then abort e r .settingsChanged
      else if h.captureConfig.transferAveraging = .exponential then abort e r .settingsChanged
      else if !r.inputsUnchanged h.model then abort e r .inputsChanged
      else
        let submitted := v.submitSnapshot e (compare transfer h.model v.config.tolerance)
        (submitted.1, { r with verify := some submitted.2 })

/-- `poll()`. -/
def poll (compare : TransferEstimate → EqPaneView → VerifyTolerance → Report)
    (e : OutputEngine Src) (r : EqVerifyRunner Report) (h : HostView) :
    OutputEngine Src × EqVerifyRunner Report :=
  match r.verify with
  | none => (e, r)
  | some v =>
    if !r.busy then (e, r)
    else if !h.environment.deviceRunning then abort e r .deviceStopped
    else
      match v.state with
      | .waiting =>
        let v' := v.poll e
        if v'.state = .waiting then
          if captureTimedOut r.armedAtMs h.nowMs kEqVerifyTimeoutMs then abort e r .timedOut
          else (e, { r with verify := some v' })
        else
          trySubmit compare e { r with
            verify := some v'
            measuringAtMs := h.nowMs
            measuringRendered := e.renderedSamples } v' h
      | .measuring => trySubmit compare e r v h
      | .settling =>
        let v' := v.poll e
        if v'.state = .done then (e, { r with verify := some v', outcome := .done })
        else (e, { r with verify := some v' })
      | _ => (e, r)

/-! ### Everything each call can do -/

/-- A press is accepted: nothing blocks it and the engine is quiescent. -/
def PressAccepts (e : OutputEngine Src) (r : EqVerifyRunner Report) (h : HostView) : Prop :=
  r.blocker h = .none ∧ e.publishedIdle = true ∧ e.armed = false

instance (e : OutputEngine Src) (r : EqVerifyRunner Report) (h : HostView) :
    Decidable (PressAccepts e r h) :=
  inferInstanceAs (Decidable (_ ∧ _ ∧ _))

theorem passed_of_ite_eq {α : Type} {p : Prop} [Decidable p] {refusal answer rest : α}
    (hne : refusal ≠ answer) (h : (if p then refusal else rest) = answer) : ¬p ∧ rest = answer :=
  (ite_eq_iff.mp h).resolve_left fun hrefused => hne hrefused.2

variable {r : EqVerifyRunner Report}

variable {e : OutputEngine Src} {h : HostView}

/-- Nothing blocks a press only if nobody else has the output. -/
theorem unheld_of_blocker (hnone : r.blocker h = .none) :
    r.busy = false ∧ h.environment.generatorPlaying = false ∧
      h.environment.captureBusy = false := by
  rw [blocker] at hnone
  iterate 3 obtain ⟨-, hnone⟩ := passed_of_ite_eq (by decide) hnone
  obtain ⟨hbusy, hnone⟩ := passed_of_ite_eq (by decide) hnone
  iterate 2 obtain ⟨-, hnone⟩ := passed_of_ite_eq (by decide) hnone
  obtain ⟨hgenerator, hnone⟩ := passed_of_ite_eq (by decide) hnone
  obtain ⟨hcapture, -⟩ := passed_of_ite_eq (by decide) hnone
  exact ⟨Bool.eq_false_of_not_eq_true hbusy, Bool.eq_false_of_not_eq_true hgenerator,
    Bool.eq_false_of_not_eq_true hcapture⟩

/-- The source a press installs. -/
def pressSource (pinkNoise : UInt64 → ℚ → Src) (e : OutputEngine Src) (h : HostView) : Src :=
  pinkNoise 1 (pressConfig e h).excitationDbFsRms

theorem press_of_accepts (pinkNoise : UInt64 → ℚ → Src) (hacc : PressAccepts e r h) :
    ∃ e' r', press pinkNoise e r h = (true, e', r') ∧
      ArmedFor (pressSource pinkNoise e h) e.outputEpoch e' ∧ r'.state = .waiting := by
  obtain ⟨hblock, hidle, harm⟩ := hacc
  obtain ⟨e', he', harmed⟩ := EqVerify.arm_of_quiescent pinkNoise
    (v := ({ config := pressConfig e h } : EqVerify Report)) rfl hidle harm
  rw [press, hblock]
  dsimp only
  rw [he', if_neg (by simp)]
  exact ⟨_, _, rfl, harmed, rfl⟩

/-- A press that is not accepted changes the refusal and nothing else. -/
theorem press_of_not_accepts (pinkNoise : UInt64 → ℚ → Src) (hacc : ¬ PressAccepts e r h) :
    ∃ why, press pinkNoise e r h = (false, e, { r with refusal := why }) := by
  rw [press]
  cases hblock : r.blocker h with
  | none =>
    have harm := EqVerify.arm_of_not_quiescent pinkNoise
      (v := ({ config := pressConfig e h } : EqVerify Report)) rfl fun hq => hacc ⟨hblock, hq⟩
    dsimp only
    rw [harm, if_pos (by simp)]
    exact ⟨_, rfl⟩
  | _ => exact ⟨_, rfl⟩

/-- The latest snapshot can be compared with the bound trace: it has a transfer estimate with
coherence, on the trace's grid, averaged over a FIFO, and the pane is as it was at the press. -/
def snapshotFits (r : EqVerifyRunner Report) (h : HostView) : Bool :=
  match h.latest.bind fun s => s.transfer.map fun t => (s, t) with
  | none => false
  | some (snapshot, transfer) =>
    transfer.coherence.isSome && (sameGrid h.model snapshot transfer &&
      (h.captureConfig.transferAveraging ≠ .exponential && r.inputsUnchanged h.model))

/-- Everything `trySubmit` asks for before it submits. -/
def SubmitReady (e : OutputEngine Src) (r : EqVerifyRunner Report) (h : HostView) : Prop :=
  dwellSamples e h ≤ renderedSince e r ∧ snapshotFits r h = true

instance (e : OutputEngine Src) (r : EqVerifyRunner Report) (h : HostView) :
    Decidable (SubmitReady e r h) :=
  inferInstanceAs (Decidable (_ ∧ _))

/-- What a poll did with a check that was being measured. -/
inductive SubmitOutcome (e : OutputEngine Src) (r : EqVerifyRunner Report) (h : HostView) :
    OutputEngine Src × EqVerifyRunner Report → Prop
  | waited (hnot : ¬ SubmitReady e r h) : SubmitOutcome e r h (e, r)
  | aborted (why) (hnot : ¬ SubmitReady e r h) : SubmitOutcome e r h (abort e r why)
  | submitted (v) (hready : SubmitReady e r h) (hv : v.state = .settling) :
      SubmitOutcome e r h (e.disarmSource, { r with verify := some v })

theorem waitOrStall_cases
    (hnot : ¬ SubmitReady e r h) : SubmitOutcome e r h (waitOrStall e r h) := by
  rw [waitOrStall]
  split
  · exact .aborted _ hnot
  · exact .waited hnot

section

variable (compare : TransferEstimate → EqPaneView → VerifyTolerance → Report) (e : OutputEngine Src)
  (r : EqVerifyRunner Report)

/-- A submission is made exactly when everything it asks for is there. -/
theorem trySubmit_cases {v : EqVerify Report} (hv : v.state = .measuring) (h : HostView) :
    SubmitOutcome e r h (trySubmit compare e r v h) := by
  rw [trySubmit]
  by_cases hdwell : (renderedSince e r : ℚ) < dwellSamples e h
  · rw [if_pos hdwell]
    exact waitOrStall_cases fun hready => absurd hready.1 (not_le.mpr hdwell)
  · rw [if_neg hdwell]
    have hready : SubmitReady e r h ↔ snapshotFits r h = true :=
      and_iff_right (not_lt.mp hdwell)
    rw [snapshotFits] at hready
    generalize (h.latest.bind fun s => s.transfer.map fun t => (s, t)) = latest at hready ⊢
    rcases latest with _ | ⟨snapshot, transfer⟩
    · exact waitOrStall_cases (by simp [hready])
    · dsimp only at hready ⊢
      split
      · exact waitOrStall_cases (by simp_all)
      · split
        · exact .aborted _ (by simp_all)
        · split
          · exact .aborted _ (by simp_all)
          · split
            · exact .aborted _ (by simp_all)
            · rw [EqVerify.submitSnapshot, if_neg (not_not.mpr hv)]
              exact .submitted _ (by simp_all [Option.isSome_iff_ne_none]) rfl

/-- A poll submits exactly when this holds of what it finds. -/
def takesSnapshot (e : OutputEngine Src) (r : EqVerifyRunner Report) (h : HostView) : Bool :=
  match r.verify with
  | none => false
  | some v =>
    h.environment.deviceRunning &&
      match v.state with
      | .waiting =>
        decide (EqVerify.settleSamples v.config ≤ e.renderedSamples.toNat) &&
          decide (SubmitReady e { r with measuringRendered := e.renderedSamples } h)
      | .measuring => decide (SubmitReady e r h)
      | _ => false

/-- Everything a poll can do, by the state it found. -/
inductive PollOutcome (e : OutputEngine Src) (r : EqVerifyRunner Report) (h : HostView) :
    OutputEngine Src × EqVerifyRunner Report → Prop
  /-- Nothing moves: no check, or its state is kept. -/
  | kept (r' : EqVerifyRunner Report) (hstate : r'.state = r.state)
      (hrendered : r'.measuringRendered = r.measuringRendered)
      (hnot : takesSnapshot e r h = false) : PollOutcome e r h (e, r')
  /-- The check is over: aborted, or its ramp has come down. -/
  | finished (e' : OutputEngine Src) (r' : EqVerifyRunner Report)
      (hstate : r'.state = .idle ∨ r'.state = .done) (hepoch : e'.outputEpoch = e.outputEpoch)
      (hnot : takesSnapshot e r h = false) : PollOutcome e r h (e', r')
  /-- Measuring is observed, and the snapshot may already be taken in the same poll. -/
  | observed (r' : EqVerifyRunner Report) (hwaiting : r.state = .waiting)
      (hstate : r'.state = .measuring) (hrendered : r'.measuringRendered = e.renderedSamples)
      (htakes : takesSnapshot e r h = true ↔ SubmitReady e r' h)
      {out} (hsubmit : SubmitOutcome e r' h out) : PollOutcome e r h out
  /-- A check that was being measured. -/
  | measured (hmeasuring : r.state = .measuring)
      (htakes : takesSnapshot e r h = true ↔ SubmitReady e r h)
      {out} (hsubmit : SubmitOutcome e r h out) : PollOutcome e r h out

theorem poll_cases (h : HostView) :
    PollOutcome e r h (poll compare e r h) := by
  rw [poll]
  cases hverify : r.verify with
  | none => exact .kept r rfl rfl (by simp [takesSnapshot, hverify])
  | some v =>
    have hstate : r.state = v.state := by simp [state, hverify]
    have htakes : takesSnapshot e r h = (h.environment.deviceRunning &&
        match v.state with
        | .waiting =>
          decide (EqVerify.settleSamples v.config ≤ e.renderedSamples.toNat) &&
            decide (SubmitReady e { r with measuringRendered := e.renderedSamples } h)
        | .measuring => decide (SubmitReady e r h)
        | _ => false) := by
      rw [takesSnapshot, hverify]
    dsimp only
    split
    · rename_i hbusy
      refine .kept r rfl rfl ?_
      rw [htakes]
      cases hv : v.state <;> simp_all [busy]
    · split
      · exact .finished _ _ (.inl rfl) rfl (by simp_all)
      · rename_i hrunning
        rw [Bool.not_eq_true, Bool.not_eq_false'] at hrunning
        rw [hrunning, Bool.true_and] at htakes
        cases hv : v.state with
        | waiting =>
          rw [hv] at htakes
          dsimp only at htakes ⊢
          by_cases hsettle : EqVerify.settleSamples v.config ≤ e.renderedSamples.toNat
          · have hpoll : v.poll e = { v with state := .measuring } := by
              simp only [EqVerify.poll, hv, hsettle, if_true]
            rw [hpoll, if_neg (by simp)]
            refine .observed _ (hstate.trans hv) rfl rfl ?_ (trySubmit_cases compare e _ rfl h)
            rw [htakes, decide_eq_true hsettle, Bool.true_and, decide_eq_true_iff]
            rfl
          · have hpoll : v.poll e = v := by
              simp only [EqVerify.poll, hv, hsettle, if_false]
            rw [decide_eq_false hsettle, Bool.false_and] at htakes
            rw [hpoll, if_pos hv]
            split
            · exact .finished _ _ (.inl rfl) rfl htakes
            · exact .kept _ hstate.symm rfl htakes
        | measuring =>
          rw [hv] at htakes
          refine .measured (hstate.trans hv) ?_ (trySubmit_cases compare e r hv h)
          rw [htakes, decide_eq_true_iff]
        | settling =>
          rw [hv] at htakes
          dsimp only
          by_cases hquiet : e.sourceIsQuiescent = true
          · have hpoll : v.poll e = { v with state := .done } := by
              simp only [EqVerify.poll, hv, hquiet, if_true]
            rw [hpoll, if_pos rfl]
            exact .finished _ _ (.inr rfl) rfl htakes
          · have hpoll : v.poll e = v := by
              simp only [EqVerify.poll, hv, hquiet, if_false, Bool.false_eq_true]
            rw [hpoll, if_neg (by simp [hv])]
            exact .kept _ hstate.symm rfl htakes
        | idle =>
          rw [hv] at htakes
          exact .kept r rfl rfl htakes
        | done =>
          rw [hv] at htakes
          exact .kept r rfl rfl htakes

/-- A poll turns a running check into a settling one exactly when it takes the snapshot. -/
theorem poll_submits_iff (h : HostView) :
    (r.state ≠ .settling ∧ (poll compare e r h).2.state = .settling) ↔
      takesSnapshot e r h = true := by
  have hcases := poll_cases compare e r h
  generalize poll compare e r h = out at hcases
  have hsubmit : ∀ {r' : EqVerifyRunner Report}, r'.state = .measuring →
      SubmitOutcome e r' h out → (out.2.state = .settling ↔ SubmitReady e r' h) := by
    intro r' hr' hout
    cases hout with
    | waited hnot => simp [hr', hnot]
    | aborted why hnot => simp [abort, state, hnot]
    | submitted v hready hv => simp [state, hv, hready]
  cases hcases with
  | kept r' hstate hrendered hnot => simp [hstate, hnot]
  | finished e' r' hstate hepoch hnot => rcases hstate with hs | hs <;> simp [hs, hnot]
  | observed r' hwaiting hstate hrendered htakes hout =>
    rw [htakes, hsubmit hstate hout, hwaiting, and_iff_right (by simp)]
  | measured hmeasuring htakes hout =>
    rw [htakes, hsubmit hmeasuring hout, hmeasuring, and_iff_right (by simp)]

end

end EqVerifyRunner

end RtaTool
