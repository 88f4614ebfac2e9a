import RtaTool.Measure.AlignRunner
import RtaTool.Measure.CapturePresses
import RtaTool.Measure.GeneratorRunner

/-!
# Six features, one output

LOCATE, CAL, SWEEP, VERIFY, ALIGN and GEN share one output engine, and the first three one capture
accumulator. There is no lock. Each feature asks the others, by a list of its own, before it starts:
LOCATE, CAL and SWEEP ask `outputBusy`, ALIGN is told it as `captureBusy`, VERIFY is told
`captureBusy` and whether GEN plays, and GEN is told the name of the holder.

Here the six are put on one engine. LOCATE, CAL and SWEEP are those of `CapturePresses`, with its
path from the device to the capture; the runners of VERIFY, ALIGN and GEN are given what
`wireEqVerify`, `wireAlign` and `generatorEnvironment` give them. What else a runner reads of the
world comes with the call and may be anything.

## Main definitions

* `MainOutput`, `OutputAct`, `outputRuns` -- the machine
* `captureBusy`, `outputBusy`, `outputHolderName` -- the guards
* `Feature`, `Active`, `Exclusive`, `PlaysOwn`, `HandsOff` -- the property
-/

namespace RtaTool

open OutputEngine

/-- `MainComponent`, as far as the output goes. -/
structure MainOutput (Report Ir : Type) where
  press : PressRun
  verify : EqVerifyRunner Report := {}
  align : AlignRunner Excitation Ir := {}
  generator : GeneratorRunner := {}

/-- What can happen next. Of LOCATE, CAL, SWEEP, the device and the routing it is what can happen in
`pressRuns`, save for the input mode and for what stands there for VERIFY, ALIGN and GEN. -/
inductive OutputAct (Ir : Type)
  | press (a : PressAct)
  | setSyntheticMode (enabled : Bool)
  | verifyPress (h : HostView)
  | verifyPoll (h : HostView)
  | adopt (h : HostView) (filed bound : Bool)
  | alignPress (h : AlignView)
  | alignSum (h : AlignView)
  | alignPoll (h : AlignView)
  | setAnswers (answers : AlignAnswers)
  | answerCycle (milliseconds : ℚ)
  | bindIr (source : Source) (ir : Option (SweepWitness Ir))
  | generatorStart (env : GeneratorEnvironment)
  | generatorStop (nowMs : ℚ)
  | generatorApply (env : GeneratorEnvironment) (nowMs : ℚ) (next : GeneratorSettings)
  | generatorPoll (env : GeneratorEnvironment) (nowMs : ℚ)

/-- `EqVerifyRunner::adopt()`; `filed` is whether the capture is in the library, `bound` whether it
could be selected. -/
def EqVerifyRunner.adopt {Report : Type} (r : EqVerifyRunner Report) (h : HostView)
    (filed bound : Bool) : EqVerifyRunner Report :=
  if r.state ≠ .done ∨ (r.verify.bind (·.report)).isNone ∨ filed = false then r
  else if !r.inputsUnchanged h.model then { r with outcome := .inputsChanged }
  else if !bound then r
  else { r with verify := none, outcome := .adopted }

namespace MainOutput

variable {Report Ir : Type}

/-! ### The guards -/

/-- `generator_.active()`. -/
def generatorActive (s : MainOutput Report Ir) : Bool := s.generator.state != .idle

/-- `captureBusy()`. -/
def captureBusy (s : MainOutput Report Ir) : Bool :=
  s.press.locate.locateWaitingForSettle || s.press.locate.locateCaptureArmed ||
    s.press.cal.calibrationCaptureArmed || s.press.sweepBusy || s.align.measuring

/-- `outputBusy()`. -/
def outputBusy (s : MainOutput Report Ir) : Bool :=
  s.captureBusy || s.verify.busy || s.generatorActive

/-- `outputHolderName()`. -/
def outputHolderName (s : MainOutput Report Ir) : String :=
  if s.press.locate.locateWaitingForSettle || s.press.locate.locateCaptureArmed then "LOCATE"
  else if s.press.cal.calibrationCaptureArmed then "CAL"
  else if s.press.sweepBusy then "SWEEP"
  else if s.align.measuring then "ALIGN"
  else if s.verify.busy then "VERIFY"
  else ""

/-! ### What the runners are told -/

/-- `audioIo_.output()`. -/
def engine (s : MainOutput Report Ir) : OutputEngine Excitation := s.press.engine

/-- The engine after a call. -/
def setEngine (s : MainOutput Report Ir) (e : OutputEngine Excitation) : MainOutput Report Ir :=
  { s with press := { s.press with engine := e } }

/-- LOCATE, CAL and SWEEP, with the other three as they are. -/
def pressing (s : MainOutput Report Ir) : PressRun :=
  { s.press with outputHeld := s.align.measuring || s.verify.busy || s.generatorActive }

/-- `host.environment` of `wireEqVerify`. -/
def verifyHost (s : MainOutput Report Ir) (h : HostView) : HostView :=
  { h with
    environment := { h.environment with
      synthetic := s.press.path.synthetic
      captureBusy := s.captureBusy
      generatorPlaying := s.generatorActive } }

/-- `host.environment` of `wireAlign`. -/
def alignHost (s : MainOutput Report Ir) (h : AlignView) : AlignView :=
  { h with
    environment := { h.environment with
      synthetic := s.press.path.synthetic
      captureBusy := s.outputBusy } }

/-- `generatorEnvironment()`. -/
def generatorEnvironment (s : MainOutput Report Ir) (env : GeneratorEnvironment) :
    GeneratorEnvironment :=
  { env with synthetic := s.press.path.synthetic, busyBy := s.outputHolderName }

/-! ### The calls -/

/-- What VERIFY and ALIGN play, and what GEN plays. -/
def noiseOf (client : OutputClient) : UInt64 → ℚ → Excitation := fun _ _ => .other client

/-- A press of VERIFY. -/
def verifyPress (s : MainOutput Report Ir) (h : HostView) : MainOutput Report Ir :=
  let pressed := EqVerifyRunner.press (noiseOf .verify) s.engine s.verify (s.verifyHost h)
  { s.setEngine pressed.2.1 with verify := pressed.2.2 }

/-- A poll of VERIFY. -/
def verifyPoll (compare : TransferEstimate → EqPaneView → VerifyTolerance → Report)
    (s : MainOutput Report Ir) (h : HostView) : MainOutput Report Ir :=
  let polled := EqVerifyRunner.poll compare s.engine s.verify (s.verifyHost h)
  { s.setEngine polled.1 with verify := polled.2 }

/-- MEASURE. -/
def alignPress (s : MainOutput Report Ir) (h : AlignView) : MainOutput Report Ir :=
  let pressed := AlignRunner.press (noiseOf .align) s.engine s.align (s.alignHost h)
  { s.setEngine pressed.2.1 with align := pressed.2.2 }

/-- SUM. -/
def alignSum (s : MainOutput Report Ir) (h : AlignView) : MainOutput Report Ir :=
  let pressed := AlignRunner.pressSum (noiseOf .align) s.engine s.align (s.alignHost h)
  { s.setEngine pressed.2.1 with align := pressed.2.2 }

/-- A poll of ALIGN. -/
def alignPoll (dsp : AlignDsp Ir) (s : MainOutput Report Ir) (h : AlignView) :
    MainOutput Report Ir :=
  let polled := AlignRunner.poll dsp s.engine s.align (s.alignHost h)
  { s.setEngine polled.1 with align := polled.2 }

/-- GEN and the engine it borrows. -/
def rig (s : MainOutput Report Ir) : GeneratorRig Excitation := ⟨s.engine, s.generator⟩

/-- GEN and the engine after a call. -/
def setRig (s : MainOutput Report Ir) (rig : GeneratorRig Excitation) : MainOutput Report Ir :=
  { s.setEngine rig.engine with generator := rig.runner }

/-- What GEN plays. -/
def voice : GeneratorVoice → Excitation := fun _ => .other .generator

/-- `cancelLocate()`. -/
def cancelLocate (s : MainOutput Report Ir) : MainOutput Report Ir :=
  { s with press := s.press.cancelLocate }

/-- `generator_.cancel("input mode changed")`. -/
def cancelGenerator (s : MainOutput Report Ir) : MainOutput Report Ir :=
  s.setRig (s.rig.cancel "input mode changed")

/-- `setSyntheticMode(enabled)`. -/
def setSyntheticMode (s : MainOutput Report Ir) (enabled : Bool) : MainOutput Report Ir :=
  if enabled = s.press.path.synthetic then s
  else
    let cancelled := s.cancelLocate.cancelGenerator
    { cancelled with
      press :=
        if enabled then cancelled.press.enterSynthetic else cancelled.press.leaveSynthetic }

end MainOutput

/-- The app, with hops of `hop` samples. -/
def outputRuns {Report Ir : Type} (hop : ℕ)
    (compare : TransferEstimate → EqPaneView → VerifyTolerance → Report) (dsp : AlignDsp Ir) :
    Machine (MainOutput Report Ir) (OutputAct Ir) where
  init s := ∃ bus engine, engine.armed = false ∧ s = { press := .start bus engine false }
  step s
    | .press a =>
      match a with
      | .setSyntheticMode _ | .holdOutput _ | .releaseOutput => none
      | a => ((pressRuns hop).step s.pressing a).map fun pressed => { s with press := pressed }
    | .setSyntheticMode enabled => some (s.setSyntheticMode enabled)
    | .verifyPress h => some (s.verifyPress h)
    | .verifyPoll h => some (s.verifyPoll compare h)
    | .adopt h filed bound => some { s with verify := s.verify.adopt h filed bound }
    | .alignPress h => some (s.alignPress h)
    | .alignSum h => some (s.alignSum h)
    | .alignPoll h => some (s.alignPoll dsp h)
    | .setAnswers answers => some { s with align := { s.align with answers := answers } }
    | .answerCycle milliseconds => some { s with align := s.align.answerCycleMs milliseconds }
    | .bindIr source ir => some { s with align := s.align.bindIr source ir }
    | .generatorStart env =>
      some (s.setRig (s.rig.start MainOutput.voice (s.generatorEnvironment env)).2)
    | .generatorStop nowMs => some (s.setRig (s.rig.stop nowMs))
    | .generatorApply env nowMs next =>
      some (s.setRig (s.rig.apply (s.generatorEnvironment env) nowMs next).2)
    | .generatorPoll env nowMs =>
      some (s.setRig (s.rig.poll MainOutput.voice (s.generatorEnvironment env) nowMs))

/-! ### The property -/

/-- The six. -/
inductive Feature
  | locate
  | cal
  | sweep
  | verify
  | align
  | generator
  deriving DecidableEq, Repr

/-- What a feature plays. CAL plays nothing. -/
def Feature.excitation : Feature → Option Excitation
  | .locate => some .locate
  | .cal => none
  | .sweep => some .sweep
  | .verify => some (.other .verify)
  | .align => some (.other .align)
  | .generator => some (.other .generator)

/-- Whose call an act is. -/
def OutputAct.feature {Ir : Type} : OutputAct Ir → Option Feature
  | .press (.locateClicked _) | .press .pollLocate => some .locate
  | .press (.calibrationStartClicked _) | .press (.calibrationEndClicked _)
  | .press (.pollCalibration _) => some .cal
  | .press (.startOn ..) | .press (.pollSweep _ _) => some .sweep
  | .press _ | .setSyntheticMode _ => none
  | .verifyPress _ | .verifyPoll _ | .adopt _ _ _ => some .verify
  | .alignPress _ | .alignSum _ | .alignPoll _ | .setAnswers _ | .answerCycle _
  | .bindIr _ _ => some .align
  | .generatorStart _ | .generatorStop _ | .generatorApply _ _ _ | .generatorPoll _ _ =>
    some .generator

namespace MainOutput

variable {Report Ir : Type}

/-- A feature is active. -/
def Active (s : MainOutput Report Ir) : Feature → Prop
  | .locate => s.press.locateBusy
  | .cal => s.press.cal.calibrationCaptureArmed = true
  | .sweep => s.press.sweepBusy = true
  | .verify => s.verify.busy = true
  | .align => s.align.measuring = true
  | .generator => s.generatorActive = true

/-- At most one feature is active. -/
def Exclusive (s : MainOutput Report Ir) : Prop := ∀ f g, s.Active f → s.Active g → f = g

/-- An armed engine has the source of the one feature that is active. -/
def PlaysOwn (s : MainOutput Report Ir) : Prop :=
  s.engine.armed = true → ∃ f, s.Active f ∧ (∀ g, s.Active g → g = f) ∧
    f.excitation.isSome = true ∧ s.engine.slot = f.excitation

/-- A call of one feature leaves the engine and the accumulator to any other that is active. -/
def Leaves (f : Feature) (s t : MainOutput Report Ir) : Prop :=
  ∀ g, s.Active g → g ≠ f → t.engine = s.engine ∧ t.press.path = s.press.path

/-- So does every call of a step. A switch of the input mode makes two, one of LOCATE and one of
GEN. -/
def HandsOff (s : MainOutput Report Ir) (a : OutputAct Ir) (t : MainOutput Report Ir) : Prop :=
  (∀ f, a.feature = some f → Leaves f s t) ∧
    (∀ enabled, a = .setSyntheticMode enabled →
      Leaves .locate s s.cancelLocate ∧ Leaves .generator s.cancelLocate s.cancelLocate.cancelGenerator)

end MainOutput

end RtaTool
