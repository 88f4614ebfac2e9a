import RtaTool.Lib.Machine
import RtaTool.Measure.AlignmentWizard

/-!
# Alignment runs

The wizard and its engine as one machine: the operator answers, arms, polls, submits, cancels and
starts over in any order, and blocks are rendered in between. A run starts from a fresh wizard and
an engine in any condition whatever, since other features have used it before.

What a run *means* is not in the wizard: it has a step and a window flag, not a record of what was
played. The last three fields of `WizardRun` are that record. They are bookkeeping, written here
and read by no operation: which outputs the current step was soloed on, how many samples have been
rendered on them since with the source armed, and what question (a) said at the time.

A wizard is only ever built for two different outputs that exist; `AlignRunner::blocker` refuses
to start otherwise. That is the one promise of the caller used here, and `RunConfig` carries it.

## Main definitions

* `RunConfig` -- a configuration the caller may build a wizard for
* `WizardRun`, `WizardAct`, `alignmentRuns` -- the machine
* `SoloedOn` -- exactly these outputs are routed
-/

namespace RtaTool

open OutputEngine AlignmentWizard

/-- A configuration `AlignRunner` builds a wizard for: two different outputs, both there. -/
structure RunConfig extends AlignConfig where
  main_inRange : inRange mainOutputChannel
  sub_inRange : inRange subOutputChannel
  main_ne_sub : mainOutputChannel ≠ subOutputChannel

/-- Of the outputs there are, exactly those in `outputs` are routed. -/
def SoloedOn {Src : Type} (e : OutputEngine Src) (outputs : List ℤ) : Prop :=
  ∀ n < kMaxChannels, e.role (n : ℤ) = .routed ↔ (n : ℤ) ∈ outputs

instance {Src : Type} (e : OutputEngine Src) (outputs : List ℤ) : Decidable (SoloedOn e outputs) :=
  inferInstanceAs (Decidable (∀ n < kMaxChannels, _))

/-- The engine, the wizard, and what has been done on behalf of the current step. -/
structure WizardRun (Src Ir : Type) where
  engine : OutputEngine Src
  wizard : AlignmentWizard Src Ir
  /-- The outputs the current step was soloed on. -/
  soloed : List ℤ
  /-- Samples rendered since, while those outputs alone were routed and the source was armed. -/
  settled : ℕ
  /-- Question (a)'s answer when the current step was soloed. -/
  askedSide : Option Source

/-- What can happen next. -/
inductive WizardAct (Src Ir : Type)
  | answerHighPassSide (side : Source)
  | answerTopology (topology : Topology)
  | answerInversion (inversion : ProcessorInversion)
  | answerCrossoverSeed (hz : Option ℚ)
  | answerCycle (samples : Option ℤ)
  | supplyImpulseResponse (source : Source) (witness : ImpulseWitness Ir)
  | supplyWhitenedPeakSign (sign : Sign)
  | arm
  | poll
  | submitCapture (tr : Trace)
  | beginMeasuredSum
  | submitMeasuredSum (tr : Trace)
  /-- `AlignRunner` gives a run up: the engine is disarmed and the wizard dropped. -/
  | cancel
  /-- `AlignRunner::press` builds a fresh wizard. -/
  | restart (source : Option Src) (config : RunConfig)
  | render (hasOutput : Bool) (numOutputChannels numSamples : ℤ)

namespace WizardRun

variable {Src Ir : Type}

/-- A fresh wizard over the engine as it stands. -/
def fresh (e : OutputEngine Src) (source : Option Src) (config : AlignConfig) :
    WizardRun Src Ir where
  engine := e
  wizard := { source := source, config := config }
  soloed := []
  settled := 0
  askedSide := none

/-- A step has just been soloed: its record starts empty. -/
def resolo (s : WizardRun Src Ir) (outputs : List ℤ) : WizardRun Src Ir :=
  { s with soloed := outputs, settled := 0, askedSide := s.wizard.highPassSide }

/-- The effect of one action. -/
def next [AudioSource Src] (dsp : AlignDsp Ir) (s : WizardRun Src Ir) :
    WizardAct Src Ir → WizardRun Src Ir
  | .answerHighPassSide side => { s with wizard := s.wizard.answerHighPassSide side }
  | .answerTopology topology => { s with wizard := s.wizard.answerTopology topology }
  | .answerInversion inversion => { s with wizard := s.wizard.answerInversion inversion }
  | .answerCrossoverSeed hz => { s with wizard := s.wizard.answerCrossoverSeed hz }
  | .answerCycle samples => { s with wizard := s.wizard.answerCycleOffsetSamples samples }
  | .supplyImpulseResponse source witness =>
    { s with wizard := s.wizard.supplyImpulseResponse source witness }
  | .supplyWhitenedPeakSign sign => { s with wizard := s.wizard.supplyWhitenedPeakSign sign }
  | .arm =>
    let r := arm s.engine s.wizard
    let t := { s with engine := r.1, wizard := r.2 }
    if ArmAccepts s.engine s.wizard then t.resolo [s.wizard.highSideChannel] else t
  | .poll => { s with wizard := poll s.engine s.wizard }
  | .submitCapture tr =>
    let r := submitCapture dsp s.engine s.wizard tr
    let t := { s with engine := r.1, wizard := r.2 }
    if s.wizard.Accepting ∧ s.wizard.step = .measuringHigh then
      t.resolo [s.wizard.lowSideChannel]
    else t
  | .beginMeasuredSum =>
    let r := beginMeasuredSum s.engine s.wizard
    let t := { s with engine := r.1, wizard := r.2 }
    if s.wizard.SumAccepts then
      t.resolo [s.wizard.config.mainOutputChannel, s.wizard.config.subOutputChannel]
    else t
  | .submitMeasuredSum tr =>
    let r := submitMeasuredSum s.engine s.wizard tr
    { s with engine := r.1, wizard := r.2 }
  | .cancel => fresh s.engine.disarmSource s.wizard.source s.wizard.config
  | .restart source config => fresh s.engine source config.toAlignConfig
  | .render hasOutput numOutputChannels numSamples =>
    { s with
      engine := s.engine.render hasOutput numOutputChannels numSamples
      settled := s.settled +
        if s.engine.armed = true ∧ SoloedOn s.engine s.soloed then
          s.engine.samplesRendered hasOutput numSamples
        else 0 }

end WizardRun

/-- Every run of an alignment, over whatever engine it finds. -/
def alignmentRuns (Src : Type) {Ir : Type} [AudioSource Src] (dsp : AlignDsp Ir) :
    Machine (WizardRun Src Ir) (WizardAct Src Ir) where
  init s := ∃ e source, ∃ config : RunConfig, s = .fresh e source config.toAlignConfig
  step s a := some (s.next dsp a)

/-- Numerical routines that answer the same whatever they are given: both loudspeakers positive,
the pair as `rho` says, no delay candidates. -/
def steadyDsp (rho : Sign) : AlignDsp Unit where
  spectralCrossover _ _ _ _ _ _ _ := ⟨100, [100], .none⟩
  crossoverBandFit _ _ _ _ _ _ := ⟨0, 0, 1, 100, [], .none⟩
  expectedOffset _ _ := ⟨0, false, 0⟩
  wrapToPiHalfOpen x := x
  topologyPeakLagSamples _ _ _ _ := 0
  findPolarity _ := (.positive, .none, 20)
  relativePolarity _ _ := (rho, .none, 1)

/-- Outputs 0 and 1 at `sampleRate`. -/
def stereoConfig (sampleRate : ℚ) : RunConfig where
  sampleRate := sampleRate
  main_inRange := by decide
  sub_inRange := by decide
  main_ne_sub := by decide

/-- A two-bin capture with the given phase column. -/
def shortCapture (phase : List ℚ) (h : phase = [] ∨ phase.length = 2) : Trace where
  info :=
    { id := [], capturedAtUnixMs := 0, deviceName := [], channelRoles := [], sampleRate := 48000
      fftSize := 2, window := [], averagingType := [], averagingDepth := 0
      effectiveAverages := 0, appliedDelaySamples := 0, calibrationOffsetDb := 0
      calibrationUnit := .dbFs }
  magnitude := [0, 0]
  phase := phase
  coherence := []
  magnitude_ne_nil := by decide
  magnitude_length := by decide
  phase_length := h
  coherence_length := .inl rfl

/-- One with a phase. -/
def phasedCapture : Trace := shortCapture [0, 0] (.inr rfl)

/-- The four answers, with `side` as the high-pass side. -/
def answers {Src Ir : Type} (side : Source) : List (WizardAct Src Ir) :=
  [.answerHighPassSide side, .answerTopology {}, .answerInversion .no, .answerCrossoverSeed none]

/-! ### Which outputs are routed -/

namespace WizardRun

variable {Src Ir : Type}

theorem soloedOn_congr {e e' : OutputEngine Src} {outputs : List ℤ}
    (h : ∀ ch, e'.role ch = e.role ch) : SoloedOn e' outputs ↔ SoloedOn e outputs := by
  simp only [SoloedOn, h]

theorem soloedOn_soloOutput (e : OutputEngine Src) (ch : ℤ) : SoloedOn (e.soloOutput ch) [ch] := by
  intro n hn
  have hr : inRange (n : ℤ) := ⟨by omega, by omega⟩
  rw [soloOutput, routeEach_role, if_pos hr, List.mem_singleton]
  by_cases h : (n : ℤ) = ch
  · simp [h, roleOf]
  · simp [h, roleOf]

theorem soloedOn_sum (e : OutputEngine Src) (main sub : ℤ) :
    SoloedOn ((e.soloOutput main).applyToggle sub true .additive) [main, sub] := by
  intro n hn
  have hr : inRange (n : ℤ) := ⟨by omega, by omega⟩
  have hmain := soloedOn_soloOutput e main n hn
  rw [applyToggle, if_neg (by simp), routeOutput_role, List.mem_cons, List.mem_singleton]
  rw [List.mem_singleton] at hmain
  by_cases h : (n : ℤ) = sub
  · have hsub : inRange sub := h ▸ hr
    simp [h, hsub, roleOf]
  · simp [h, hmain]

end WizardRun

end RtaTool
