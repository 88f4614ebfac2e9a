import RtaTool.Measure.AlignmentAcceptance

/-!
# Two questions after one fit

A fit can leave two things open: which cycle of the delay is meant, and whether the pair is
inverted when two eligible signals disagree about it. The second is never resolved silently; the
wizard stands in `AskingPolarity` and shows both.

`compute` asks the cycle question first and returns. The polarity check comes after that return,
and the other way into `Computed` is the late answer to the cycle question, which does not make it.
So a disagreement is noticed exactly when the cycle was known before the fit.

Along a run the wizard never stands in `Computed` over a disagreement if and only if no cycle
answer is given over one in `AskingCycle`, and the order of answer and capture makes a difference in
exactly those cases.

## Main definitions

* `NeverSilent` -- the property, on steps
* `AnswersAgreeing` -- the condition, on steps

## Main results

* `never_silent_iff` -- both statements
-/

namespace RtaTool

open OutputEngine AlignmentWizard

namespace WizardRun

variable {Src Ir : Type}

/-- The wizard does not stand in `Computed` over two eligible signals that disagree. -/
def NeverSilent (_ : WizardRun Src Ir) (_ : WizardAct Src Ir) (t : WizardRun Src Ir) : Prop :=
  t.wizard.step = .computed → ¬ SignalsDisagree t.wizard.signals

/-- A cycle answer that `AskingCycle` was waiting for is not given over a disagreement. -/
def AnswersAgreeing (s : WizardRun Src Ir) (a : WizardAct Src Ir) (_ : WizardRun Src Ir) : Prop :=
  match a with
  | .answerCycle (some _) => s.wizard.step = .askingCycle → ¬ SignalsDisagree s.wizard.signals
  | _ => True

instance (s : WizardRun Src Ir) (a : WizardAct Src Ir) (t : WizardRun Src Ir) :
    Decidable (NeverSilent s a t) :=
  inferInstanceAs (Decidable (_ → ¬ _))

instance (s : WizardRun Src Ir) (a : WizardAct Src Ir) (t : WizardRun Src Ir) :
    Decidable (AnswersAgreeing s a t) :=
  match a with
  | .answerCycle (some _) => inferInstanceAs (Decidable (_ → ¬ _))
  | .answerHighPassSide _ | .answerTopology _ | .answerInversion _ | .answerCrossoverSeed _
  | .answerCycle none | .supplyImpulseResponse _ _ | .supplyWhitenedPeakSign _ | .arm | .poll
  | .submitCapture _ | .beginMeasuredSum | .submitMeasuredSum _ | .cancel | .restart _ _
  | .render _ _ _ => inferInstanceAs (Decidable True)

/-! ### What a fit decides -/

theorem computeFit_cycleOffset (dsp : AlignDsp Ir) (w : AlignmentWizard Src Ir) (a b : Trace)
    (va vb : VirtualTrace) {n : ℤ} (h : w.cycleAnswer = some n) :
    (w.computeFit dsp a b va vb).cycleOffset = some n := by
  simp only [computeFit, resolveCycle, h]

theorem stepAfterFit_eq_computed_iff (w : AlignmentWizard Src Ir) :
    w.stepAfterFit = .computed ↔ w.cycleOffset.isSome ∧ ¬ SignalsDisagree w.signals := by
  rw [stepAfterFit]
  cases hc : w.cycleOffset with
  | none => simp
  | some n => by_cases hd : SignalsDisagree w.signals <;> simp [hd]

/-! ### The step -/

theorem neverSilent_congr {s t : WizardRun Src Ir} {a : WizardAct Src Ir}
    (hs : s.wizard.step = .computed → ¬ SignalsDisagree s.wizard.signals)
    (hstep : t.wizard.step = s.wizard.step) (hsignals : t.wizard.signals = s.wizard.signals) :
    NeverSilent s a t := by
  rw [NeverSilent, hstep, hsignals]
  exact hs

theorem neverSilent_iff_answersAgreeing [AudioSource Src] (dsp : AlignDsp Ir)
    {s : WizardRun Src Ir} (a : WizardAct Src Ir)
    (hs : s.wizard.step = .computed → ¬ SignalsDisagree s.wizard.signals) :
    NeverSilent s a (s.next dsp a) ↔ AnswersAgreeing s a (s.next dsp a) := by
  cases a with
  | answerCycle samples =>
    obtain ⟨-, -, -, -, hsignals, -, -⟩ := answerCycle_frame s.wizard samples
    have hstep := answerCycle_step s.wizard samples
    show (((s.wizard.answerCycleOffsetSamples samples).step = .computed →
      ¬ SignalsDisagree (s.wizard.answerCycleOffsetSamples samples).signals) ↔ _)
    rw [hstep, hsignals]
    cases samples with
    | none => simpa [AnswersAgreeing] using hs
    | some n =>
      by_cases hask : s.wizard.step = .askingCycle
      · simp [AnswersAgreeing, hask]
      · simpa [AnswersAgreeing, hask] using hs
  | arm =>
    refine iff_of_true ?_ trivial
    by_cases hacc : ArmAccepts s.engine s.wizard
    · rw [WizardRun.next, arm_of_accepts hacc, if_pos hacc]
      rintro ⟨⟩
    · obtain ⟨r, hr⟩ := arm_of_not_accepts hacc
      rw [WizardRun.next, hr, if_neg hacc]
      exact neverSilent_congr hs rfl rfl
  | poll =>
    refine iff_of_true ?_ trivial
    rw [WizardRun.next, AlignmentWizard.poll]
    split
    · exact hs
    · split
      · exact hs
      · exact hs
  | submitCapture tr =>
    refine iff_of_true ?_ trivial
    by_cases hacc : s.wizard.Accepting
    · obtain ⟨hhigh | hlow, hwin⟩ := hacc
      · rw [WizardRun.next, submitCapture_of_high hhigh hwin, if_pos ⟨⟨.inl hhigh, hwin⟩, hhigh⟩]
        rintro ⟨⟩
      · rw [WizardRun.next, submitCapture_of_low hlow hwin, if_neg fun h => by simp [hlow] at h]
        rcases compute_cases dsp (storeCapture { s.wizard with refusal := .none } tr) with
          ⟨a, b, va, vb, -, -, hfit⟩ | ⟨-, r, hr⟩
        · rw [hfit]
          intro h
          rw [computeFit_step] at h
          exact ((stepAfterFit_eq_computed_iff _).mp h).2
        · rw [hr]
          intro h
          cases hlow.symm.trans h
    · obtain ⟨r, hr⟩ := submitCapture_of_not_accepting dsp s.engine tr hacc
      rw [WizardRun.next, hr, if_neg fun h => hacc h.1]
      exact neverSilent_congr hs rfl rfl
  | beginMeasuredSum =>
    refine iff_of_true ?_ trivial
    by_cases hacc : s.wizard.SumAccepts
    · rw [WizardRun.next, beginMeasuredSum_of_accepts hacc, if_pos hacc]
      rintro ⟨⟩
    · rw [WizardRun.next, beginMeasuredSum_of_not_accepts hacc, if_neg hacc]
      exact neverSilent_congr hs rfl rfl
  | submitMeasuredSum tr =>
    refine iff_of_true ?_ trivial
    rw [WizardRun.next, submitMeasuredSum]
    split
    · exact neverSilent_congr hs rfl rfl
    · split
      · exact neverSilent_congr hs rfl rfl
      · rintro ⟨⟩
  | supplyImpulseResponse source witness =>
    refine iff_of_true ?_ trivial
    cases source with
    | main => exact neverSilent_congr hs rfl rfl
    | sub => exact neverSilent_congr hs rfl rfl
  | cancel => exact iff_of_true (by rintro ⟨⟩) trivial
  | restart source config => exact iff_of_true (by rintro ⟨⟩) trivial
  | _ => exact iff_of_true (neverSilent_congr hs rfl rfl) trivial

/-! ### The order of the answer -/

section

variable (dsp : AlignDsp Ir) (e : OutputEngine Src)

variable {w : AlignmentWizard Src Ir} {p : Trace × Trace} {tr : Trace}

/-- Answered before the LOW capture: the fit finds the cycle known and looks at the signals. -/
theorem step_of_early_answer (n : ℤ) (hlow : w.step = .measuringLow)
    (hwin : w.windowOpen = true) (hpair : (w.storeCapture tr).pair = some p)
    (husable : pairRefusal p.1 p.2 = .none) :
    (submitCapture dsp e (w.answerCycleOffsetSamples (some n)) tr).2.step =
      if SignalsDisagree (w.buildPolaritySignals dsp) then .askingPolarity else .computed := by
  have hans : w.answerCycleOffsetSamples (some n) = { w with cycleAnswer := some n } := by
    simp only [answerCycleOffsetSamples, hlow]
  obtain ⟨a, b⟩ := p
  rw [hans, submitCapture_of_low (w := { w with cycleAnswer := some n }) hlow hwin]
  obtain ⟨va, vb, hfit⟩ := compute_of_pairRefusal_none dsp
    (w := storeCapture { w with cycleAnswer := some n, refusal := .none } tr) hpair husable
  rw [hfit, computeFit_step, stepAfterFit, computeFit_cycleOffset _ _ _ _ _ _ rfl,
    (computeFit_frame _ _ _ _ _ _).2]
  rfl

/-- Answered after it: whatever the signals say, a wizard that was asking stands in
`Computed`. -/
theorem step_of_late_answer (n : ℤ) (hlow : w.step = .measuringLow)
    (hwin : w.windowOpen = true) (hpair : (w.storeCapture tr).pair = some p)
    (husable : pairRefusal p.1 p.2 = .none) :
    ((submitCapture dsp e w tr).2.answerCycleOffsetSamples (some n)).step =
      if (submitCapture dsp e w tr).2.step = .askingCycle then .computed
      else if SignalsDisagree (w.buildPolaritySignals dsp) then .askingPolarity
      else .computed := by
  obtain ⟨a, b⟩ := p
  rw [submitCapture_of_low hlow hwin, answerCycle_step]
  obtain ⟨va, vb, hfit⟩ := compute_of_pairRefusal_none dsp
    (w := storeCapture { w with refusal := .none } tr) hpair husable
  rw [hfit, computeFit_step, stepAfterFit, (computeFit_frame _ _ _ _ _ _).2]
  cases computeFit dsp (storeCapture { w with refusal := .none } tr) a b va vb |>.cycleOffset with
  | none => simp
  | some m =>
    by_cases hd : SignalsDisagree (w.buildPolaritySignals dsp)
    · have hd' : SignalsDisagree
          (buildPolaritySignals dsp (storeCapture { w with refusal := .none } tr)) := hd
      simp [hd, hd']
    · have hd' : ¬ SignalsDisagree
          (buildPolaritySignals dsp (storeCapture { w with refusal := .none } tr)) := hd
      simp [hd, hd']

theorem submitCapture_signals (hlow : w.step = .measuringLow)
    (hwin : w.windowOpen = true) (hpair : (w.storeCapture tr).pair = some p)
    (husable : pairRefusal p.1 p.2 = .none) :
    (submitCapture dsp e w tr).2.signals = w.buildPolaritySignals dsp := by
  obtain ⟨a, b⟩ := p
  rw [submitCapture_of_low hlow hwin]
  obtain ⟨va, vb, hfit⟩ := compute_of_pairRefusal_none dsp
    (w := storeCapture { w with refusal := .none } tr) hpair husable
  rw [hfit, (computeFit_frame _ _ _ _ _ _).2]
  rfl

end

/-! ### The runs -/

/-- **Headline.** Along every run the wizard never stands in `Computed` over two eligible signals
that disagree if and only if no cycle answer is given over such a disagreement in `AskingCycle`.
And the two orders of answering -- before the LOW capture, or after it -- end in the same step if
and only if the later one was not such an answer. -/
theorem never_silent_iff [AudioSource Src] (dsp : AlignDsp Ir) :
    (∀ (s : WizardRun Src Ir) (acts : List (WizardAct Src Ir)), (alignmentRuns Src dsp).init s →
      ((alignmentRuns Src dsp).AlongSteps NeverSilent s acts ↔
        (alignmentRuns Src dsp).AlongSteps AnswersAgreeing s acts)) ∧
    ∀ (e : OutputEngine Src) (w : AlignmentWizard Src Ir) (tr : Trace) (n : ℤ) (p : Trace × Trace),
      w.step = .measuringLow → w.windowOpen = true → (w.storeCapture tr).pair = some p →
      pairRefusal p.1 p.2 = .none →
      ((submitCapture dsp e (w.answerCycleOffsetSamples (some n)) tr).2.step =
          ((submitCapture dsp e w tr).2.answerCycleOffsetSamples (some n)).step ↔
        ¬ ((submitCapture dsp e w tr).2.step = .askingCycle ∧
          SignalsDisagree (submitCapture dsp e w tr).2.signals)) := by
  constructor
  · rintro s acts ⟨e, source, config, rfl⟩
    refine Machine.alongSteps_iff
      (fun s => s.wizard.step = .computed → ¬ SignalsDisagree s.wizard.signals) ?_ ?_
      (fun h => nomatch h)
    · intro s a t hs ht hok
      cases ht
      exact (neverSilent_iff_answersAgreeing dsp a hs).mpr hok
    · intro s a t hs ht
      cases ht
      exact neverSilent_iff_answersAgreeing dsp a hs
  · intro e w tr n p hlow hwin hpair husable
    rw [step_of_early_answer dsp e n hlow hwin hpair husable,
      step_of_late_answer dsp e n hlow hwin hpair husable,
      submitCapture_signals dsp e hlow hwin hpair husable]
    by_cases hask : (submitCapture dsp e w tr).2.step = .askingCycle
    · by_cases hd : SignalsDisagree (w.buildPolaritySignals dsp) <;> simp [hask, hd]
    · simp [hask]

/-- Impulse responses of both sides, then the whole sequence up to the fit. -/
def fittedRun : List (WizardAct (RatedSource Unit) Unit) :=
  answers .main ++
    [.supplyImpulseResponse .main ⟨(), 0⟩, .supplyImpulseResponse .sub ⟨(), 0⟩, .arm,
      .render true 2 480, .poll, .submitCapture phasedCapture,
      .render true 2 480, .poll, .submitCapture phasedCapture]

/-- A wizard about to take the LOW capture. -/
def lowWizard : AlignmentWizard (RatedSource Unit) Unit :=
  { source := none
    config := (stereoConfig 48000).toAlignConfig
    highPassSide := some .main
    irMain := some ⟨(), 0⟩
    irSub := some ⟨(), 0⟩
    mainCapture := some phasedCapture
    step := .measuringLow
    windowOpen := true }

theorem never_silent_fittedRun :
    (alignmentRuns (RatedSource Unit) (steadyDsp .positive)).AlongSteps NeverSilent
        (.fresh make none (stereoConfig 48000).toAlignConfig)
        (fittedRun ++ [.answerCycle (some 12)]) ∧
      ¬ (submitCapture (steadyDsp .negative) make (lowWizard.answerCycleOffsetSamples (some 12))
          phasedCapture).2.step =
        ((submitCapture (steadyDsp .negative) make lowWizard
          phasedCapture).2.answerCycleOffsetSamples (some 12)).step :=
  ⟨((never_silent_iff _).1 _ _ ⟨_, _, stereoConfig 48000, rfl⟩).mpr (by decide +kernel),
    fun h => ((never_silent_iff _).2 make lowWizard phasedCapture 12 _ rfl rfl
      rfl (by decide +kernel)).mp h (by decide +kernel)⟩

/-- Both loudspeakers read positive and the pair reads negative. Answered late, the cycle offset
takes the wizard to `Computed` and nobody is asked. -/
theorem computed_over_disagreement :
    ¬ ∀ (s : WizardRun (RatedSource Unit) Unit) (acts : List (WizardAct (RatedSource Unit) Unit)),
      (alignmentRuns (RatedSource Unit) (steadyDsp .negative)).init s →
      (alignmentRuns (RatedSource Unit) (steadyDsp .negative)).AlongSteps NeverSilent s acts := by
  intro h
  refine absurd (h (.fresh make none (stereoConfig 48000).toAlignConfig)
    (fittedRun ++ [.answerCycle (some 12)]) ⟨_, _, _, rfl⟩) ?_
  decide +kernel

end WizardRun

end RtaTool
