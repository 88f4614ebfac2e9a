import RtaTool.Measure.AlignmentRuns
import RtaTool.Measure.OutputTurns

/-!
# The output has one client at a time

Every call of LOCATE, SWEEP, CAL, VERIFY, ALIGN and GEN is a turn, and the device, the analysis
thread and the routing go on around the six.

## Main results

* `turn_locateClicked` and what follows it -- each call is a turn
* `outputRuns_exclusive` -- the property, in every state that is reached
-/

namespace RtaTool

open OutputEngine

namespace MainOutput

variable {Report Ir : Type} {s t : MainOutput Report Ir} {f : Feature}

/-! ### LOCATE -/

section

variable (hs : s.HoldsOutput)

include hs

theorem Turn.pressing (f : Feature) :
    Turn f s { s with press := s.pressing } :=
  .refused hs (fun g => by cases g <;> rfl) rfl rfl

omit hs in
theorem press_others {q : PressRun} (hlocate : f = .locate ∨ q.locate = s.press.locate)
    (hcal : f = .cal ∨ q.cal = s.press.cal) (hsweep : f = .sweep ∨ q.sweep = s.press.sweep) :
    ∀ g, g ≠ f → s.SameFeature { s with press := q } g := by
  intro g hg
  cases g with
  | locate => exact hlocate.resolve_left hg.symm
  | cal => exact hcal.resolve_left hg.symm
  | sweep => exact hsweep.resolve_left hg.symm
  | _ => rfl

theorem turn_locateClicked (outputs : List ℤ) :
    Turn .locate s { s with press := s.pressing.locateClicked outputs } := by
  rw [PressRun.locateClicked, pressing_outputBusy]
  split
  · exact .pressing hs .locate
  · rename_i hfree
    rw [Bool.not_eq_true, outputBusy_eq_false_iff] at hfree
    rw [setSource_eq]
    split
    · simp only [Bool.not_true, Bool.false_eq_true, if_false]
      generalize (if outputs = [] then [0] else outputs) = outs
      have hslot := (routeOutputSet_frame { s.pressing.engine with
        slot := some Excitation.locate
        slotEpoch := s.pressing.engine.outputEpoch } outs).1
      exact .alone (hfree.alone _) (press_others (.inl rfl) (.inr rfl) (.inr rfl))
        (fun _ => ⟨.inl rfl, rfl, hslot⟩) trivial
    · exact .pressing hs .locate

theorem turn_cancelLocate : Turn .locate s s.cancelLocate := by
  rw [cancelLocate, PressRun.cancelLocate]
  split
  · exact .refused hs (fun g => by cases g <;> rfl) rfl rfl
  · rename_i hbusy
    have hlocate : s.Active .locate := by
      rw [Active, PressRun.locateBusy]
      revert hbusy
      cases s.press.locate.locateWaitingForSettle <;> simp
    exact .alone (hs.alone hlocate) (press_others (.inl rfl) (.inr rfl) (.inr rfl))
      (fun h => absurd h Bool.false_ne_true) trivial

theorem turn_pollLocateCapture :
    Turn .locate s { s with press := s.press.pollLocateCapture.1 } := by
  rcases s.press.pollLocateCapture_cases with heq | heq | ⟨capture, harmed, -, -, -, heq⟩ <;>
    rw [heq]
  · exact .refused hs (fun g => by cases g <;> rfl) rfl rfl
  · exact turn_cancelLocate hs
  · exact .alone (hs.alone (.inr harmed)) (press_others (.inl rfl) (.inr rfl) (.inr rfl))
      (fun h => absurd h Bool.false_ne_true) trivial

theorem turn_armLocate (hwaiting : s.press.locate.locateWaitingForSettle = true) :
    Turn .locate s { s with press := s.press.armLocate } := by
  have halone := hs.alone (f := .locate) (.inl hwaiting)
  refine .alone halone (press_others (.inl rfl) (.inr rfl) (.inr rfl)) (fun harmed => ?_) trivial
  obtain ⟨-, hsome, hslot⟩ := hs.voices halone harmed
  exact ⟨.inr rfl, hsome, hslot⟩

theorem turn_pollLocatePipeline :
    Turn .locate s { s with press := s.press.pollLocatePipeline.1 } := by
  rw [PressRun.pollLocatePipeline]
  split
  · rename_i hwaiting
    split
    · exact .refused hs (fun g => by cases g <;> rfl) rfl rfl
    · split
      · exact .refused hs (fun g => by cases g <;> rfl) rfl rfl
      · have harm := turn_armLocate hs hwaiting
        exact harm.after (turn_pollLocateCapture (hs.turn harm))
  · exact turn_pollLocateCapture hs

/-! ### SWEEP -/

theorem turn_startOn (outputChannel : ℤ) (named : Bool) (outputChannels : ℤ)
    (driveOutputs : List ℤ) (durationSec tailSeconds nowMs : ℚ) :
    Turn .sweep s { s with
      press := s.pressing.startOn outputChannel named outputChannels driveOutputs durationSec
        tailSeconds nowMs } := by
  rcases s.pressing.startOn_cases outputChannel named outputChannels driveOutputs durationSec
    tailSeconds nowMs with heq | ⟨hfree, outputs, captureSamples, heq⟩ <;> rw [heq]
  · exact .pressing hs .sweep
  · rw [pressing_outputBusy, outputBusy_eq_false_iff] at hfree
    have hslot := (routeOutputSet_frame { s.pressing.engine with
      slot := some Excitation.sweep
      slotEpoch := s.pressing.engine.outputEpoch } outputs).1
    exact .alone (hfree.alone _) (press_others (.inr rfl) (.inr rfl) (.inl rfl))
      (fun _ => ⟨rfl, rfl, hslot⟩) ⟨fun _ => hslot, by rintro ⟨⟩⟩

theorem turn_abortSweep (hbusy : s.Active .sweep) :
    Turn .sweep s { s with press := s.press.abortSweep } := by
  exact .alone (hs.alone hbusy) (press_others (.inr rfl) (.inr rfl) (.inl rfl))
    (fun h => absurd h Bool.false_ne_true) ⟨(by rintro (h | h) <;> cases h), by rintro ⟨⟩⟩

theorem turn_pollPreRoll (hstate : s.press.sweep.state = .preRoll)
    (nowMs : ℚ) : Turn .sweep s { s with press := s.press.pollPreRoll nowMs } := by
  have hbusy : s.Active .sweep := PressRun.sweepArmed.holds (.inl hstate)
  rw [PressRun.pollPreRoll]
  split
  · exact turn_abortSweep hs hbusy
  · split
    · exact .refused hs (fun g => by cases g <;> rfl) rfl rfl
    · -- its own source is in the slot since the press
      have hslot := (hs.poised .sweep).1 (.inl hstate)
      exact .alone (hs.alone hbusy) (press_others (.inr rfl) (.inr rfl) (.inl rfl))
        (fun _ => ⟨rfl, rfl, hslot⟩) ⟨fun _ => hslot, by rintro ⟨⟩⟩

theorem turn_pollPlaying (hstate : s.press.sweep.state = .playing)
    (nowMs : ℚ) : Turn .sweep s { s with press := (s.press.pollPlaying nowMs).1 } := by
  have hbusy : s.Active .sweep := PressRun.sweepArmed.holds (.inr hstate)
  rcases s.press.pollPlaying_cases nowMs with heq | heq | ⟨capture, -, heq⟩ <;> rw [heq]
  · exact .refused hs (fun g => by cases g <;> rfl) rfl rfl
  · exact turn_abortSweep hs hbusy
  · exact .alone (hs.alone hbusy) (press_others (.inr rfl) (.inr rfl) (.inl rfl))
      (fun h => absurd h Bool.false_ne_true) ⟨(by rintro (h | h) <;> cases h), fun _ => rfl⟩

theorem turn_pollSweep (nowMs : ℚ) (outcome : Bool) :
    Turn .sweep s { s with press := (s.press.pollSweep nowMs outcome).1 } := by
  have hkept : Turn .sweep s { s with press := s.press } :=
    .refused hs (fun g => by cases g <;> rfl) rfl rfl
  rw [PressRun.pollSweep.eq_def]
  split
  case h_1 => exact hkept
  case h_2 hstate =>
    split
    · have hbusy : s.Active .sweep := by simp [Active, PressRun.sweepBusy, hstate]
      have hdown := (hs.poised .sweep).2 hstate
      exact .alone (hs.alone hbusy) (press_others (.inr rfl) (.inr rfl) (.inl rfl))
        (fun harmed => absurd (hdown.symm.trans harmed) Bool.false_ne_true)
        ⟨(by rintro (h | h) <;> cases h), by rintro ⟨⟩⟩
    · exact hkept
  case h_3 hstate =>
    split
    · exact turn_abortSweep hs (PressRun.sweepArmed.holds (.inl hstate))
    · exact turn_pollPreRoll hs hstate nowMs
  case h_4 hstate =>
    split
    · exact turn_abortSweep hs (PressRun.sweepArmed.holds (.inr hstate))
    · exact turn_pollPlaying hs hstate nowMs

/-! ### CAL -/

theorem turn_armCalibration (hfree : s.Free) (isStart : Bool) (nowMs : ℚ) :
    Turn .cal s { s with press := s.pressing.armCalibration isStart nowMs } := by
  exact .alone (hfree.alone _) (press_others (.inr rfl) (.inl rfl) (.inr rfl))
    (fun h => absurd h (hs.not_armed hfree)) trivial

theorem turn_calibrationStartClicked (nowMs : ℚ) :
    Turn .cal s { s with press := s.pressing.calibrationStartClicked nowMs } := by
  rw [PressRun.calibrationStartClicked, pressing_outputBusy]
  split
  · exact .pressing hs .cal
  · rename_i hfree
    rw [Bool.not_eq_true, outputBusy_eq_false_iff] at hfree
    exact turn_armCalibration hs hfree true nowMs

theorem turn_calibrationEndClicked (nowMs : ℚ) :
    Turn .cal s { s with press := s.pressing.calibrationEndClicked nowMs } := by
  rw [PressRun.calibrationEndClicked, pressing_outputBusy]
  split
  · exact .pressing hs .cal
  · rename_i hfree
    rw [Bool.not_eq_true, outputBusy_eq_false_iff] at hfree
    split
    · exact .pressing hs .cal
    · exact turn_armCalibration hs hfree false nowMs

/-- CAL lets go of the accumulator; it has never had the engine. -/
theorem turn_releaseCalibration {cal : CalibrationState}
    (hcal : cal.calibrationCaptureArmed = false) :
    Turn .cal s { s with press := { s.press with cal := cal } } := by
  refine ⟨press_others (.inr rfl) (.inl rfl) (.inr rfl),
    fun _ _ _ => ⟨rfl, rfl, fun h => absurd (hcal.symm.trans h) (by rintro ⟨⟩)⟩, fun halone harmed => ?_,
    fun _ => trivial⟩
  obtain ⟨-, hsome, -⟩ := hs.voices halone harmed
  cases hsome

theorem turn_pollCalibrationPipeline (nowMs : ℚ) :
    Turn .cal s { s with press := (s.press.pollCalibrationPipeline nowMs).1 } := by
  rcases s.press.pollCalibrationPipeline_cases nowMs with heq | heq | ⟨capture, -, -, heq⟩ <;>
    rw [heq]
  · exact .refused hs (fun g => by cases g <;> rfl) rfl rfl
  · exact turn_releaseCalibration hs rfl
  · exact turn_releaseCalibration hs (s.press.recordCheck_armed capture)

/-! ### VERIFY -/

omit hs in
theorem verify_others {e : OutputEngine Excitation} {r : EqVerifyRunner Report} :
    ∀ g, g ≠ .verify → s.SameFeature { s.setEngine e with verify := r } g := by
  intro g hg
  cases g with
  | verify => exact absurd rfl hg
  | _ => rfl

/-- A call of VERIFY that moves neither the engine nor the state of the check. -/
theorem turn_verify_kept {r : EqVerifyRunner Report} (hstate : r.state = s.verify.state) :
    Turn .verify s { s.setEngine s.engine with verify := r } := by
  refine .quiet hs verify_others rfl rfl ?_ ?_
  · simp only [Active, EqVerifyRunner.busy, hstate]
  · simp only [Poised, hstate]
    exact id

omit hs in
/-- Nothing blocks a press only if nobody is active. -/
theorem free_of_verify_blocker {h : HostView} (hnone : s.verify.blocker (s.verifyHost h) = .none) :
    s.Free := by
  obtain ⟨hbusy, hgenerator, hcapture⟩ := EqVerifyRunner.unheld_of_blocker hnone
  rw [← outputBusy_eq_false_iff, outputBusy, hbusy]
  simp only [verifyHost] at hgenerator hcapture
  rw [hgenerator, hcapture]
  rfl

theorem turn_verifyPress (h : HostView) :
    Turn .verify s (s.verifyPress h) := by
  by_cases hacc : EqVerifyRunner.PressAccepts s.engine s.verify (s.verifyHost h)
  · have hfree := free_of_verify_blocker hacc.1
    obtain ⟨e, r, heq, harmed, hstate⟩ :=
      EqVerifyRunner.press_of_accepts (noiseOf .verify) hacc
    rw [verifyPress, heq]
    refine .alone (hfree.alone _) verify_others (fun _ => ⟨?_, rfl, harmed.slot⟩) ?_
    · simp [Active, EqVerifyRunner.busy, hstate]
    · simp [Poised, hstate]
  · obtain ⟨why, heq⟩ := EqVerifyRunner.press_of_not_accepts (noiseOf .verify) hacc
    rw [verifyPress, heq]
    exact turn_verify_kept hs rfl

omit hs in
theorem turn_verifyPoll (compare : TransferEstimate → EqPaneView → VerifyTolerance → Report)
    (hs : s.HoldsOutput) (h : HostView) : Turn .verify s (s.verifyPoll compare h) := by
  have hmove := EqVerifyRunner.poll_move compare s.engine s.verify (s.verifyHost h)
  rw [verifyPoll]
  generalize EqVerifyRunner.poll compare s.engine s.verify (s.verifyHost h) = polled at hmove ⊢
  cases hmove with
  | kept r hstate => exact turn_verify_kept hs hstate
  | observed r hwaiting hstate =>
    refine .quiet hs verify_others rfl rfl ?_ ?_
    · simp [Active, EqVerifyRunner.busy, hwaiting, hstate]
    · simp [Poised, hstate]
  | settled r hsettling hstate =>
    -- the engine has been disarmed since the check began to settle
    have hbusy : s.Active .verify := by simp [Active, EqVerifyRunner.busy, hsettling]
    have hdown := hs.poised .verify hsettling
    exact .alone (hs.alone hbusy) verify_others
      (fun harmed => absurd (hdown.symm.trans harmed) Bool.false_ne_true) fun _ => hdown
  | stopped r hbusy =>
    exact .alone (hs.alone hbusy) verify_others (fun h => absurd h Bool.false_ne_true)
      fun _ => rfl

/-- `adopt()` ends a check that is done, and one that is done is not active. -/
theorem turn_adopt (h : HostView) (filed bound : Bool) :
    Turn .verify s { s with verify := s.verify.adopt h filed bound } := by
  rw [EqVerifyRunner.adopt]
  split
  · exact turn_verify_kept hs rfl
  · rename_i hdone
    rw [not_or, not_not] at hdone
    split
    · exact turn_verify_kept hs rfl
    · split
      · exact turn_verify_kept hs rfl
      · have hidle : s.verify.busy = false := by simp [EqVerifyRunner.busy, hdone.1]
        refine .quiet (t := { s with verify := _ }) hs verify_others rfl rfl ?_ ?_
        · rw [Active, Active, hidle]
          simp [EqVerifyRunner.busy, EqVerifyRunner.state]
        · simp [Poised, EqVerifyRunner.state]

/-! ### ALIGN -/

omit hs in
theorem align_others {e : OutputEngine Excitation} {r : AlignRunner Excitation Ir} :
    ∀ g, g ≠ .align → s.SameFeature { s.setEngine e with align := r } g := by
  intro g hg
  cases g with
  | align => exact absurd rfl hg
  | _ => rfl

theorem turn_align_kept {r : AlignRunner Excitation Ir}
    (hmeasuring : r.measuring = s.align.measuring) :
    Turn .align s { s.setEngine s.engine with align := r } := by
  refine .quiet hs align_others rfl rfl ?_ fun _ => trivial
  simp only [Active, hmeasuring]

omit hs in
/-- Nothing blocks a press only if nobody is active. -/
theorem free_of_align_blocker {h : AlignView}
    (hnone : s.align.blocker s.engine (s.alignHost h) = .none) : s.Free := by
  rw [← outputBusy_eq_false_iff]
  exact AlignRunner.unheld_of_blocker hnone

theorem turn_alignPress (h : AlignView) :
    Turn .align s (s.alignPress h) := by
  rw [alignPress, AlignRunner.press.eq_def]
  split
  · rename_i hnone
    have hfree := free_of_align_blocker hnone
    have hdown := hs.not_armed hfree
    by_cases hacc : AlignmentWizard.ArmAccepts s.engine
        (AlignRunner.freshWizard (noiseOf .align) s.engine s.align (s.alignHost h))
    · rw [AlignmentWizard.arm_of_accepts hacc]
      dsimp only
      rw [if_neg (by simp)]
      have hslot := AlignRunner.armedEngine_slot hacc
      rw [AlignRunner.freshWizard_source] at hslot
      exact .alone (hfree.alone _) align_others (fun _ => ⟨rfl, rfl, hslot⟩) trivial
    · obtain ⟨why, heq⟩ := AlignmentWizard.arm_of_not_accepts hacc
      rw [heq]
      dsimp only
      split
      · exact turn_align_kept hs rfl
      · exact .alone (hfree.alone _) align_others (fun harmed => absurd harmed hdown) trivial
  · exact turn_align_kept hs rfl

theorem turn_alignSum (h : AlignView) : Turn .align s (s.alignSum h) := by
  rw [alignSum, AlignRunner.pressSum.eq_def]
  split
  · exact turn_align_kept hs rfl
  · rename_i w hw
    rw [AlignRunner.sumWizard] at hw
    split at hw
    · cases hw
    · obtain ⟨-, hasked⟩ := Option.filter_eq_some_iff.mp hw
      simp only [Bool.and_eq_true, Bool.or_eq_true, decide_eq_true_eq, Bool.not_eq_true'] at hasked
      obtain ⟨⟨⟨-, hstep⟩, -⟩, hcapture⟩ := hasked
      have hfree : s.Free := outputBusy_eq_false_iff.mp hcapture
      have haccepts : w.SumAccepts := hstep.imp id .inr
      rw [setSource_eq]
      split
      · rename_i hset
        split at hset
        · cases hset
        · cases hset
          exact turn_align_kept hs rfl
      · rename_i hset
        split at hset
        · cases hset
          rw [AlignmentWizard.beginMeasuredSum_of_accepts haccepts]
          dsimp only
          rw [if_neg (by simp)]
          exact .alone (hfree.alone _) align_others
            (fun _ => ⟨rfl, rfl, AlignRunner.sumEngine_slot _ _ _⟩) trivial
        · cases hset

omit hs in
theorem turn_alignPoll (dsp : AlignDsp Ir) (hs : s.HoldsOutput) (h : AlignView) :
    Turn .align s (s.alignPoll dsp h) := by
  have hmove := AlignRunner.poll_move dsp s.engine s.align (s.alignHost h)
  rw [alignPoll]
  generalize AlignRunner.poll dsp s.engine s.align (s.alignHost h) = polled at hmove ⊢
  cases hmove with
  | kept r hmeasuring => exact turn_align_kept hs hmeasuring
  | soloed r ch hmeasuring hstays =>
    have halone := hs.alone (f := .align) hmeasuring
    refine .alone halone align_others (fun harmed => ?_) trivial
    have harmed : s.engine.armed = true := (soloOutput_armed s.engine ch).symm.trans harmed
    obtain ⟨-, hsome, hslot⟩ := hs.voices halone harmed
    exact ⟨hstays, hsome, (soloOutput_slot s.engine ch).trans hslot⟩
  | stopped r hmeasuring =>
    exact .alone (hs.alone hmeasuring) align_others (fun h => absurd h Bool.false_ne_true) trivial

omit hs in
theorem measuring_answerCycleMs (r : AlignRunner Excitation Ir) (milliseconds : ℚ) :
    (r.answerCycleMs milliseconds).measuring = r.measuring := by
  rw [AlignRunner.answerCycleMs]
  split
  · rfl
  · rename_i w hw
    obtain ⟨hwizard, hstep⟩ := Option.filter_eq_some_iff.mp hw
    rw [AlignRunner.measuring_of_wizard hwizard, AlignRunner.measuring_of_wizard rfl,
      AlignmentWizard.answerCycleOffsetSamples.eq_def]
    rw [Bool.or_eq_true, decide_eq_true_iff, decide_eq_true_iff] at hstep
    rcases hstep with hstep | hstep <;> simp [hstep, AlignmentWizard.Measuring]

theorem turn_answerCycleMs (milliseconds : ℚ) :
    Turn .align s { s with align := s.align.answerCycleMs milliseconds } :=
  turn_align_kept hs (measuring_answerCycleMs s.align milliseconds)

theorem turn_bindIr (source : Source) (ir : Option (SweepWitness Ir)) :
    Turn .align s { s with align := s.align.bindIr source ir } := by
  refine turn_align_kept hs ?_
  cases source <;> rfl

end

/-! ### GEN -/

variable {rig : GeneratorRig Excitation}

theorem generator_others : ∀ g, g ≠ .generator → s.SameFeature (s.setRig rig) g := by
  intro g hg
  cases g with
  | generator => exact absurd rfl hg
  | _ => rfl

theorem active_generator_iff : s.Active .generator ↔ s.generator.state ≠ .idle := by
  simp [Active, generatorActive]

section

variable (hs : s.HoldsOutput)

include hs

/-- A call of GEN that moves neither the engine nor the state of the runner. -/
theorem turn_generator_kept {r : GeneratorRunner}
    (hstate : r.state = s.generator.state) : Turn .generator s (s.setRig ⟨s.engine, r⟩) := by
  refine .quiet hs generator_others rfl rfl ?_ ?_
  · rw [active_generator_iff, active_generator_iff, ← hstate]
    rfl
  · rw [Poised, Poised, ← hstate]
    exact id

/-- A call of GEN that disarms the engine. -/
theorem turn_generator_lowered (hactive : s.Active .generator)
    (hdown : rig.engine.armed = false) : Turn .generator s (s.setRig rig) :=
  .alone (hs.alone hactive) generator_others
    (fun harmed => absurd (hdown.symm.trans harmed) Bool.false_ne_true) fun _ => hdown

theorem turn_storeSettings (next : GeneratorSettings) :
    Turn .generator s (s.setRig (s.rig.storeSettings next)) := by
  have hrunner := GeneratorRig.storeSettings_runner next s.rig
  by_cases hactive : s.Active .generator
  · have halone := hs.alone hactive
    have harmed := GeneratorRig.storeSettings_armed next s.rig
    have hslot := GeneratorRig.storeSettings_slot next s.rig
    generalize s.rig.storeSettings next = stored at hrunner harmed hslot
    refine .alone halone generator_others (fun h => ?_) fun hstopping => ?_
    · obtain ⟨-, hsome, hown⟩ := hs.voices halone (harmed.symm.trans h)
      refine ⟨?_, hsome, hslot.trans hown⟩
      rw [active_generator_iff]
      show stored.runner.state ≠ .idle
      rw [hrunner]
      exact active_generator_iff.mp hactive
    · refine harmed.trans (hs.poised .generator ?_)
      have hstopping : stored.runner.state = .stopping := hstopping
      rw [hrunner] at hstopping
      exact hstopping
  · -- in Idle the outputs are stored and not routed
    have hnot : ¬ s.rig.holdsRoutes := fun h => hactive (active_generator_iff.mpr h.ne_idle)
    rw [GeneratorRig.storeSettings]
    dsimp only
    rw [if_neg fun h => hnot h.1]
    exact turn_generator_kept hs rfl

omit hs in
/-- GEN is told of nobody only if nobody else is active. -/
theorem free_of_generator_start {env : GeneratorEnvironment}
    (hidle : ¬ s.rig.runner.state ≠ .idle) (hbusy : ¬ (s.generatorEnvironment env).busyBy ≠ "") :
    s.Free :=
  free_of_outputHolderName (not_not.mp hbusy) fun h => hidle (active_generator_iff.mp h)

theorem turn_generatorStart (env : GeneratorEnvironment) :
    Turn .generator s (s.setRig (s.rig.start voice (s.generatorEnvironment env)).2) := by
  rw [GeneratorRig.start]
  split
  · exact turn_generator_kept hs rfl
  · rename_i hidle
    split
    · exact turn_generator_kept hs rfl
    · rename_i hbusy
      have hfree := free_of_generator_start hidle hbusy
      split
      · exact turn_generator_kept hs rfl
      · dsimp only
        split
        · exact turn_generator_kept hs rfl
        · rename_i engine hinstall
          rcases GeneratorRig.install_cases hinstall with ⟨h, -⟩ | ⟨-, -, rfl⟩
          · cases h
          · refine .alone (hfree.alone _) generator_others (fun _ => ⟨?_, rfl, ?_⟩) ?_
            · rw [active_generator_iff]
              rintro ⟨⟩
            · show (OutputEngine.armSource _).slot = _
              rw [armSource_slot]
              exact routeEach_slot _ _
            · rintro ⟨⟩

theorem turn_generatorStop (nowMs : ℚ) :
    Turn .generator s (s.setRig (s.rig.stop nowMs)) := by
  rw [GeneratorRig.stop]
  split
  · rename_i hroutes
    exact turn_generator_lowered hs (active_generator_iff.mpr hroutes.ne_idle) rfl
  · exact turn_generator_kept hs rfl

theorem turn_cancelGenerator : Turn .generator s s.cancelGenerator := by
  rw [cancelGenerator, GeneratorRig.cancel]
  split
  · exact turn_generator_kept hs rfl
  · rename_i hidle
    exact turn_generator_lowered hs (active_generator_iff.mpr hidle) rfl

theorem turn_generatorApply (env : GeneratorEnvironment) (nowMs : ℚ) (next : GeneratorSettings) :
    Turn .generator s (s.setRig (s.rig.apply (s.generatorEnvironment env) nowMs next).2) := by
  rw [GeneratorRig.apply]
  split
  · exact turn_generator_kept hs rfl
  · dsimp only
    have hstored := turn_storeSettings hs (GeneratorRig.requested (s.generatorEnvironment env) next)
    split
    · rename_i hswaps
      refine hstored.after (turn_generator_lowered (hs.turn hstored) ?_ rfl)
      rw [active_generator_iff]
      show (s.rig.storeSettings _).runner.state ≠ .idle
      rw [GeneratorRig.storeSettings_runner]
      show s.rig.runner.state ≠ .idle
      rw [hswaps.1]
      rintro ⟨⟩
    · exact hstored

theorem turn_pollSwapping (hstate : s.generator.state = .swapping)
    (nowMs : ℚ) : Turn .generator s (s.setRig (s.rig.pollSwapping voice nowMs)) := by
  have hactive : s.Active .generator := active_generator_iff.mpr (by rw [hstate]; rintro ⟨⟩)
  rw [GeneratorRig.pollSwapping]
  dsimp only
  split
  · rename_i engine hinstalled
    split at hinstalled
    · rcases GeneratorRig.install_cases hinstalled with ⟨h, -⟩ | ⟨-, -, rfl⟩
      · cases h
      · refine .alone (hs.alone hactive) generator_others (fun _ => ⟨?_, rfl, rfl⟩) (by rintro ⟨⟩)
        rw [active_generator_iff]
        rintro ⟨⟩
    · cases hinstalled
  · split
    · exact turn_generator_lowered hs hactive rfl
    · exact turn_generator_kept hs rfl

/-- A GEN that stops has disarmed the engine, however the wait ends. -/
theorem turn_pollStopping (hstate : s.generator.state = .stopping)
    (nowMs : ℚ) : Turn .generator s (s.setRig (s.rig.pollStopping nowMs)) := by
  have hactive : s.Active .generator := active_generator_iff.mpr (by rw [hstate]; rintro ⟨⟩)
  have hdown : s.engine.armed = false := hs.poised .generator hstate
  rw [GeneratorRig.pollStopping]
  split
  · exact turn_generator_lowered hs hactive hdown
  · split
    · exact turn_generator_lowered hs hactive hdown
    · exact turn_generator_kept hs rfl

theorem turn_advance (env : GeneratorEnvironment) (nowMs : ℚ) :
    Turn .generator s (s.setRig (s.rig.advance voice env nowMs)) := by
  rw [GeneratorRig.advance]
  split
  · exact turn_generator_kept hs rfl
  · rename_i hidle
    have hactive : s.Active .generator := active_generator_iff.mpr hidle
    split
    · exact turn_generator_lowered hs hactive rfl
    · split
      · exact turn_generator_lowered hs hactive rfl
      · split
        case h_1 hstate => exact turn_pollSwapping hs hstate nowMs
        case h_2 hstate => exact turn_pollStopping hs hstate nowMs
        all_goals exact turn_generator_kept hs rfl

theorem turn_generatorPoll (env : GeneratorEnvironment) (nowMs : ℚ) :
    Turn .generator s (s.setRig (s.rig.poll voice (s.generatorEnvironment env) nowMs)) := by
  have hpruned : Turn .generator s (s.setRig (s.rig.pruneForDevice (s.generatorEnvironment env))) := by
    rw [GeneratorRig.pruneForDevice]
    split
    · exact turn_storeSettings hs _
    · exact turn_generator_kept hs rfl
  exact hpruned.after (turn_advance (hs.turn hpruned) (s.generatorEnvironment env) nowMs)

/-! ### What goes on around the features -/

/-- A step of nobody's. -/
theorem HoldsOutput.around (hsame : ∀ g, s.SameFeature t g) (hslot : t.engine.slot = s.engine.slot)
    (harmed : t.engine.armed = true → s.engine.armed = true) : t.HoldsOutput where
  exclusive f g hf hg := hs.exclusive f g ((hsame f).active_iff.mp hf) ((hsame g).active_iff.mp hg)
  voiced h := by
    obtain ⟨f, hactive, hsome, hown⟩ := hs.voiced (harmed h)
    exact ⟨f, (hsame f).active_iff.mpr hactive, hsome, hslot.trans hown⟩
  poised f := (hsame f).poised hslot harmed (hs.poised f)

/-- A step of nobody's that stays away from the engine. -/
theorem HoldsOutput.aside {p : CapturePath} {held : Bool} :
    HoldsOutput { s with press := { s.press with path := p, outputHeld := held } } :=
  hs.around (fun g => by cases g <;> rfl) rfl id

/-- A restart of the device disarms the engine. -/
theorem HoldsOutput.prepare {p : CapturePath} {held : Bool} (rate : ℚ) (outputs : ℤ) :
    HoldsOutput { s with
      press := { s.press with
        path := p
        engine := s.press.engine.prepare rate outputs
        outputHeld := held } } :=
  hs.around (fun g => by cases g <;> rfl) rfl fun h => absurd h Bool.false_ne_true

theorem HoldsOutput.render (numOutputChannels numSamples : ℤ) {held : Bool} :
    HoldsOutput { s with
      press := { s.press with
        engine := s.press.engine.render true numOutputChannels numSamples
        outputHeld := held } } := by
  refine hs.around (fun g => by cases g <;> rfl)
    (render_slot s.press.engine true numOutputChannels numSamples) fun harmed => ?_
  exact (s.press.engine.render_sameControl true numOutputChannels numSamples).armed.symm.trans harmed

/-- LOCATE and GEN are cancelled before the input mode changes. -/
theorem HoldsOutput.setSyntheticMode (enabled : Bool) :
    (s.setSyntheticMode enabled).HoldsOutput := by
  have hcancelled := hs.turn (turn_cancelLocate hs)
  have hsilent := hcancelled.turn (turn_cancelGenerator hcancelled)
  rw [MainOutput.setSyntheticMode]
  split
  · exact hs
  · cases enabled with
    | false => exact hsilent.aside
    | true => exact hsilent.prepare _ _

/-! ### Every run -/

omit hs in
theorem Turn.step {a : OutputAct Ir} (h : Turn f s t) (hs : s.HoldsOutput)
    (hf : a.feature = some f) : t.HoldsOutput ∧ HandsOff s a t := by
  refine ⟨hs.turn h, fun g hg => ?_, fun enabled ha => ?_⟩
  · cases hf.symm.trans hg
    exact h.leaves
  · rw [ha] at hf
    cases hf

omit hs in
theorem handsOff_of_none {a : OutputAct Ir} (hf : a.feature = none)
    (ha : ∀ enabled, a ≠ .setSyntheticMode enabled) : HandsOff s a t := by
  refine ⟨fun g hg => ?_, fun enabled h => absurd h (ha enabled)⟩
  cases hf.symm.trans hg

theorem HoldsOutput.setSyntheticMode_handsOff (enabled : Bool) :
    HandsOff s (.setSyntheticMode enabled) t := by
  refine ⟨fun _ h => (by cases h), fun _ _ => ⟨(turn_cancelLocate hs).leaves, ?_⟩⟩
  exact (turn_cancelGenerator (hs.turn (turn_cancelLocate hs))).leaves

/-- The steps of LOCATE, CAL, SWEEP, the device and the routing. -/
theorem HoldsOutput.press {hop : ℕ} {a : PressAct} {q : PressRun}
    (ha : ∀ enabled, a ≠ .setSyntheticMode enabled) (hhold : ∀ client, a ≠ .holdOutput client)
    (hrelease : a ≠ .releaseOutput) (hstep : (pressRuns hop).step s.pressing a = some q) :
    HoldsOutput { s with press := q } ∧ HandsOff s (.press a) { s with press := q } := by
  have hpress := hs.turn (.pressing hs .locate)
  have hnobody : ∀ {a : PressAct} {t : MainOutput Report Ir},
      (OutputAct.press a : OutputAct Ir).feature = none → HandsOff s (.press a) t :=
    fun h => handsOff_of_none h fun _ h => (by cases h)
  cases a with
  | push n =>
    cases hstep
    exact ⟨hs.aside, hnobody rfl⟩
  | render numOutputChannels numSamples =>
    cases hstep
    exact ⟨hs.render _ _, hnobody rfl⟩
  | analysis now =>
    cases hstep
    exact ⟨hs.aside, hnobody rfl⟩
  | setRole channel role =>
    cases hstep
    exact ⟨hs.aside, hnobody rfl⟩
  | setTransferFunction channel tf =>
    cases hstep
    exact ⟨hs.aside, hnobody rfl⟩
  | restart sampleRate inputs outputs =>
    simp only [pressRuns] at hstep
    split at hstep <;> cases hstep
    exact ⟨hs.prepare _ _, hnobody rfl⟩
  | stop =>
    simp only [pressRuns] at hstep
    split at hstep <;> cases hstep
    exact ⟨hs.aside, hnobody rfl⟩
  | setSyntheticMode enabled => exact absurd rfl (ha enabled)
  | locateClicked outputs =>
    cases hstep
    exact (turn_locateClicked hs outputs).step hs rfl
  | pollLocate =>
    cases hstep
    exact ((Turn.pressing hs .locate).after (turn_pollLocatePipeline hpress)).step hs rfl
  | startOn outputChannel named outputChannels driveOutputs durationSec tailSeconds nowMs =>
    cases hstep
    exact (turn_startOn hs _ _ _ _ _ _ _).step hs rfl
  | pollSweep nowMs outcome =>
    cases hstep
    exact ((Turn.pressing hs .sweep).after (turn_pollSweep hpress nowMs outcome)).step hs rfl
  | calibrationStartClicked nowMs =>
    cases hstep
    exact (turn_calibrationStartClicked hs nowMs).step hs rfl
  | calibrationEndClicked nowMs =>
    cases hstep
    exact (turn_calibrationEndClicked hs nowMs).step hs rfl
  | pollCalibration nowMs =>
    cases hstep
    exact ((Turn.pressing hs .cal).after (turn_pollCalibrationPipeline hpress nowMs)).step hs rfl
  | holdOutput client => exact absurd rfl (hhold client)
  | releaseOutput => exact absurd rfl hrelease

theorem HoldsOutput.step {hop : ℕ}
    {compare : TransferEstimate → EqPaneView → VerifyTolerance → Report} {dsp : AlignDsp Ir}
    {a : OutputAct Ir} (hstep : (outputRuns hop compare dsp).step s a = some t) :
    t.HoldsOutput ∧ HandsOff s a t := by
  cases a with
  | press a =>
    simp only [outputRuns] at hstep
    split at hstep
    · cases hstep
    · cases hstep
    · cases hstep
    · rename_i hmode hhold hrelease
      obtain ⟨q, hq, rfl⟩ := Option.map_eq_some_iff.mp hstep
      exact hs.press hmode hhold hrelease hq
  | setSyntheticMode enabled =>
    cases hstep
    exact ⟨hs.setSyntheticMode enabled, hs.setSyntheticMode_handsOff enabled⟩
  | verifyPress h =>
    cases hstep
    exact (turn_verifyPress hs h).step hs rfl
  | verifyPoll h =>
    cases hstep
    exact (turn_verifyPoll compare hs h).step hs rfl
  | adopt h filed bound =>
    cases hstep
    exact (turn_adopt hs h filed bound).step hs rfl
  | alignPress h =>
    cases hstep
    exact (turn_alignPress hs h).step hs rfl
  | alignSum h =>
    cases hstep
    exact (turn_alignSum hs h).step hs rfl
  | alignPoll h =>
    cases hstep
    exact (turn_alignPoll dsp hs h).step hs rfl
  | setAnswers answers =>
    cases hstep
    exact Turn.step (turn_align_kept hs rfl) hs rfl
  | answerCycle milliseconds =>
    cases hstep
    exact (turn_answerCycleMs hs milliseconds).step hs rfl
  | bindIr source ir =>
    cases hstep
    exact (turn_bindIr hs source ir).step hs rfl
  | generatorStart env =>
    cases hstep
    exact (turn_generatorStart hs env).step hs rfl
  | generatorStop nowMs =>
    cases hstep
    exact (turn_generatorStop hs nowMs).step hs rfl
  | generatorApply env nowMs next =>
    cases hstep
    exact (turn_generatorApply hs env nowMs next).step hs rfl
  | generatorPoll env nowMs =>
    cases hstep
    exact (turn_generatorPoll hs env nowMs).step hs rfl

end

theorem HoldsOutput.start (bus : CaptureBus CapturedFrame) {engine : OutputEngine Excitation}
    (hdown : engine.armed = false) :
    HoldsOutput ({ press := .start bus engine false } : MainOutput Report Ir) := by
  have hfree : Free ({ press := .start bus engine false } : MainOutput Report Ir) := by
    intro g hg
    cases g with
    | locate => rcases hg with h | h <;> cases h
    | _ => cases hg
  exact ⟨fun f _ hf _ => absurd hf (hfree f), fun h => absurd (hdown.symm.trans h) (by rintro ⟨⟩),
    fun f => poised_of_idle (hfree f)⟩

end MainOutput

/-- **Headline.** In every state that the app reaches, at most one of the six features is active, an
armed engine has the source of the one that is, and no call of a feature touches the engine or the
accumulator while another feature is active. -/
theorem outputRuns_exclusive {Report Ir : Type} {hop : ℕ}
    {compare : TransferEstimate → EqPaneView → VerifyTolerance → Report} {dsp : AlignDsp Ir}
    {s : MainOutput Report Ir} (hs : (outputRuns hop compare dsp).Reachable s) :
    s.Exclusive ∧ s.PlaysOwn ∧
      ∀ a t, (outputRuns hop compare dsp).step s a = some t → MainOutput.HandsOff s a t := by
  have hinv : s.HoldsOutput := by
    refine hs.invariant MainOutput.HoldsOutput ?_ fun s a t hs hstep => (hs.step hstep).1
    rintro s ⟨bus, engine, hdown, rfl⟩
    exact .start bus hdown
  exact ⟨hinv.exclusive, hinv.playsOwn, fun a t hstep => (hinv.step hstep).2⟩

/-- At the launch. -/
def launched : MainOutput Unit Unit where
  press := .start (CaptureBus.make 8) .make false

/-- A LOCATE that has just been pressed. -/
theorem outputRuns_exclusive_locate :
    ∃ s : MainOutput Unit Unit, s.engine.armed = true ∧ s.Exclusive ∧ s.PlaysOwn ∧
      ∀ a t, (outputRuns 1 (fun _ _ _ => ()) (steadyDsp .positive)).step s a = some t →
        MainOutput.HandsOff s a t := by
  have hpressed : (outputRuns 1 (fun _ _ _ => ()) (steadyDsp .positive)).Reachable
      { launched with press := launched.pressing.locateClicked [] } :=
    .step (.init ⟨_, _, rfl, rfl⟩) (a := .press (.locateClicked [])) rfl
  exact ⟨_, rfl, outputRuns_exclusive hpressed⟩

end RtaTool
