import RtaTool.Measure.AlignmentWindow

/-!
# What a capture is accepted from

A capture that is accepted for a side should be one of that side: the source armed, its output and
no other routed. The wizard checks its step and its window flag and nothing else, so this is an
invariant over whole runs, and two operations break it.

The LOW capture stops the excitation *before* the pair is looked at. When `compute` then refuses
the pair -- another sample rate, another FFT size, another reference, no phase -- the step is still
`MeasuringLow` and the window still open: the wizard goes on accepting captures of a silent room.
And question (a) may be answered again in the middle of a step, which turns the loudspeaker being
measured into the other side.

Excluding those two is not only enough, it is the same thing: along any run the property holds
throughout if and only if every offered LOW capture makes a usable pair and every capture is
offered under the answer its step was soloed for.

## Main definitions

* `OnlyRouted` -- exactly one output is routed
* `CapturesWhilePlaying` -- the property, on steps
* `CapturesUsable` -- the condition, on steps

## Main results

* `captures_while_playing_iff` -- the two are equivalent along every run
-/

namespace RtaTool

open OutputEngine AlignmentWizard

/-- `out` is an output and the only one routed. -/
def OnlyRouted {Src : Type} (e : OutputEngine Src) (out : ℤ) : Prop :=
  inRange out ∧ SoloedOn e [out]

instance {Src : Type} (e : OutputEngine Src) (out : ℤ) : Decidable (OnlyRouted e out) :=
  inferInstanceAs (Decidable (_ ∧ _))

theorem onlyRouted_iff {Src : Type} (e : OutputEngine Src) (out : ℤ) :
    OnlyRouted e out ↔ inRange out ∧ ∀ ch, e.role ch = .routed ↔ ch = out := by
  refine and_congr_right fun hout => ⟨fun h ch => ?_, fun h n _ => ?_⟩
  · by_cases hr : inRange ch
    · have hn := h ch.toNat (by have := hr.2; have := hr.1; omega)
      rw [List.mem_singleton, Int.toNat_of_nonneg hr.1] at hn
      exact hn
    · rw [role, if_neg hr]
      exact iff_of_false (by rintro ⟨⟩) fun h => hr (h ▸ hout)
  · rw [List.mem_singleton]
    exact h n

theorem OnlyRouted.unique {Src : Type} {e : OutputEngine Src} {out out' : ℤ}
    (h : OnlyRouted e out) (h' : OnlyRouted e out') : out = out' :=
  (((onlyRouted_iff e out').mp h').2 out).mp ((((onlyRouted_iff e out).mp h).2 out).mpr rfl)

theorem OnlyRouted.congr {Src : Type} {e e' : OutputEngine Src} {out : ℤ} (h : OnlyRouted e out)
    (hrole : ∀ ch, e'.role ch = e.role ch) : OnlyRouted e' out :=
  ⟨h.1, (WizardRun.soloedOn_congr hrole).mpr h.2⟩

theorem onlyRouted_soloOutput {Src : Type} (e : OutputEngine Src) {out : ℤ} (h : inRange out) :
    OnlyRouted (e.soloOutput out) out :=
  ⟨h, WizardRun.soloedOn_soloOutput e out⟩

/-- The output of the side an accepted capture would be stored for. -/
def AlignmentWizard.sideOutput {Src Ir : Type} (w : AlignmentWizard Src Ir) : ℤ :=
  if w.intoMain then w.config.mainOutputChannel else w.config.subOutputChannel

namespace WizardRun

variable {Src Ir : Type}

/-- A capture is accepted only while the source is armed and exactly its side's output is routed,
and the wizard never stands ready to accept one with the source stopped. -/
def CapturesWhilePlaying (s : WizardRun Src Ir) (a : WizardAct Src Ir) (t : WizardRun Src Ir) :
    Prop :=
  (match a with
    | .submitCapture _ => s.wizard.Accepting →
        s.engine.armed = true ∧ OnlyRouted s.engine s.wizard.sideOutput
    | _ => True) ∧
  (t.wizard.Accepting → t.engine.armed = true)

/-- A capture that will be accepted is offered under the answer to question (a) its step was
soloed for, and the LOW one makes a usable pair with the stored HIGH one. -/
def CapturesUsable (s : WizardRun Src Ir) (a : WizardAct Src Ir) (_ : WizardRun Src Ir) : Prop :=
  match a with
  | .submitCapture tr => s.wizard.Accepting →
      s.wizard.highPassSide = s.askedSide ∧
        (s.wizard.step = .measuringLow →
          ∀ p ∈ (s.wizard.storeCapture tr).pair, pairRefusal p.1 p.2 = .none)
  | _ => True

instance (s : WizardRun Src Ir) (a : WizardAct Src Ir) (t : WizardRun Src Ir) :
    Decidable (CapturesWhilePlaying s a t) :=
  match a with
  | .submitCapture _ => inferInstanceAs (Decidable ((_ → _ ∧ _) ∧ (_ → _)))
  | .answerHighPassSide _ | .answerTopology _ | .answerInversion _ | .answerCrossoverSeed _
  | .answerCycle _ | .supplyImpulseResponse _ _ | .supplyWhitenedPeakSign _ | .arm | .poll
  | .beginMeasuredSum | .submitMeasuredSum _ | .cancel | .restart _ _ | .render _ _ _ =>
    inferInstanceAs (Decidable (True ∧ (_ → _)))

instance (s : WizardRun Src Ir) (a : WizardAct Src Ir) (t : WizardRun Src Ir) :
    Decidable (CapturesUsable s a t) :=
  match a with
  | .submitCapture _ => inferInstanceAs (Decidable (_ → _ ∧ (_ → ∀ p ∈ _, _)))
  | .answerHighPassSide _ | .answerTopology _ | .answerInversion _ | .answerCrossoverSeed _
  | .answerCycle _ | .supplyImpulseResponse _ _ | .supplyWhitenedPeakSign _ | .arm | .poll
  | .beginMeasuredSum | .submitMeasuredSum _ | .cancel | .restart _ _ | .render _ _ _ =>
    inferInstanceAs (Decidable True)

/-! ### The invariant -/

/-- The output a step is soloed on when question (a) was answered `side`. -/
def outputFor (config : AlignConfig) (side : Option Source) (step : WizardStep) : ℤ :=
  if decide (side = some .sub) == decide (step = .measuringHigh) then config.subOutputChannel
  else config.mainOutputChannel

theorem outputFor_high (w : AlignmentWizard Src Ir) :
    outputFor w.config w.highPassSide .measuringHigh = w.highSideChannel := by
  rw [outputFor, highSideChannel]
  by_cases h : w.highPassSide = some .sub <;> simp [h]

theorem outputFor_low (w : AlignmentWizard Src Ir) :
    outputFor w.config w.highPassSide .measuringLow = w.lowSideChannel := by
  rw [outputFor, lowSideChannel]
  by_cases h : w.highPassSide = some .sub <;> simp [h]

theorem eq_main_or_eq_sub {side : Option Source} (h : side.isSome) :
    side = some .main ∨ side = some .sub := by
  obtain ⟨s, rfl⟩ := Option.isSome_iff_exists.mp h
  cases s with
  | main => exact .inl rfl
  | sub => exact .inr rfl

/-- Stored side and soloed output go together as long as the answer is the same. -/
theorem sideOutput_eq (w : AlignmentWizard Src Ir) (h : w.highPassSide.isSome) :
    w.sideOutput = outputFor w.config w.highPassSide w.step := by
  rw [sideOutput, intoMain, outputFor]
  rcases eq_main_or_eq_sub h with h | h <;> by_cases hs : w.step = .measuringHigh <;> simp [h, hs]

variable {config : AlignConfig} {s t : WizardRun Src Ir}

/-- With two different outputs the soloed output tells which answer it was soloed for. -/
theorem outputFor_injective (hne : config.mainOutputChannel ≠
    config.subOutputChannel) {side side' : Option Source} (h : side.isSome) (h' : side'.isSome)
    {step : WizardStep} (heq : outputFor config side step = outputFor config side' step) :
    side = side' := by
  rw [outputFor, outputFor] at heq
  rcases eq_main_or_eq_sub h with rfl | rfl <;> rcases eq_main_or_eq_sub h' with rfl | rfl <;>
    by_cases hs : step = .measuringHigh <;> simp_all [hne.symm]

/-- The invariant of acceptance. -/
structure AcceptInv (s : WizardRun Src Ir) : Prop where
  main_inRange : inRange s.wizard.config.mainOutputChannel
  sub_inRange : inRange s.wizard.config.subOutputChannel
  main_ne_sub : s.wizard.config.mainOutputChannel ≠ s.wizard.config.subOutputChannel
  /-- While a side is measured, the source plays on the output the step was soloed for. -/
  playing : s.wizard.step = .measuringHigh ∨ s.wizard.step = .measuringLow →
    s.engine.armed = true ∧ s.askedSide.isSome ∧ s.wizard.highPassSide.isSome ∧
      OnlyRouted s.engine (outputFor s.wizard.config s.askedSide s.wizard.step)
  /-- By the LOW step the HIGH side's capture is in. -/
  captured : s.wizard.step = .measuringLow →
    if s.askedSide = some .main then s.wizard.mainCapture.isSome else s.wizard.subCapture.isSome

theorem outputFor_inRange (hmain : inRange config.mainOutputChannel)
    (hsub : inRange config.subOutputChannel) (side : Option Source) (step : WizardStep) :
    inRange (outputFor config side step) := by
  rw [outputFor]
  split
  · exact hsub
  · exact hmain

theorem AcceptInv.of_not_side (hs : AcceptInv s) (hconfig : t.wizard.config = s.wizard.config)
    (hstep : t.wizard.step ≠ .measuringHigh ∧ t.wizard.step ≠ .measuringLow) : AcceptInv t where
  main_inRange := hconfig ▸ hs.main_inRange
  sub_inRange := hconfig ▸ hs.sub_inRange
  main_ne_sub := hconfig ▸ hs.main_ne_sub
  playing h := (h.elim hstep.1 hstep.2).elim
  captured h := (hstep.2 h).elim

theorem AcceptInv.congr (hs : AcceptInv s)
    (harmed : t.engine.armed = s.engine.armed) (hrole : ∀ ch, t.engine.role ch = s.engine.role ch)
    (hasked : t.askedSide = s.askedSide) (hconfig : t.wizard.config = s.wizard.config)
    (hstep : t.wizard.step = s.wizard.step)
    (hside : s.wizard.highPassSide.isSome → t.wizard.highPassSide.isSome)
    (hmain : t.wizard.mainCapture = s.wizard.mainCapture)
    (hsub : t.wizard.subCapture = s.wizard.subCapture) : AcceptInv t := by
  obtain ⟨hm, hsu, hne, hplay, hcap⟩ := hs
  refine ⟨hconfig ▸ hm, hconfig ▸ hsu, hconfig ▸ hne, fun h => ?_, ?_⟩
  · rw [hstep] at h
    obtain ⟨ha, has, hsi, hro⟩ := hplay h
    rw [harmed, hasked, hconfig, hstep]
    exact ⟨ha, has, hside hsi, hro.congr hrole⟩
  · simpa only [hstep, hasked, hmain, hsub] using hcap

theorem AcceptInv.fresh {e : OutputEngine Src} {source : Option Src}
    (hmain : inRange config.mainOutputChannel) (hsub : inRange config.subOutputChannel)
    (hne : config.mainOutputChannel ≠ config.subOutputChannel) :
    AcceptInv (fresh e source config : WizardRun Src Ir) where
  main_inRange := hmain
  sub_inRange := hsub
  main_ne_sub := hne
  playing h := by rcases h with h | h <;> cases h
  captured h := nomatch h

variable {s : WizardRun Src Ir}

theorem AcceptInv.arm (hs : AcceptInv s) (hacc : ArmAccepts s.engine s.wizard) :
    AcceptInv
      { engine := armedEngine s.engine s.wizard
        wizard := { s.wizard with
          refusal := .none
          windowOpen := false
          stepStartSamples := s.engine.renderedSamples
          step := .measuringHigh }
        soloed := [s.wizard.highSideChannel]
        settled := 0
        askedSide := s.wizard.highPassSide } := by
  have hside := hacc.2.1.1
  refine ⟨hs.main_inRange, hs.sub_inRange, hs.main_ne_sub,
    fun _ => ⟨rfl, hside, hside, ?_⟩, fun h => nomatch h⟩
  have hout := outputFor_inRange hs.main_inRange hs.sub_inRange s.wizard.highPassSide .measuringHigh
  rw [outputFor_high] at hout
  show OnlyRouted _ (outputFor s.wizard.config s.wizard.highPassSide .measuringHigh)
  rw [outputFor_high]
  exact (onlyRouted_soloOutput _ hout).congr fun ch => armSource_role _ ch

theorem AcceptInv.submitHigh (hs : AcceptInv s) (tr : Trace)
    (hhigh : s.wizard.step = .measuringHigh) :
    AcceptInv
      { engine := s.engine.soloOutput s.wizard.lowSideChannel
        wizard := { s.wizard.storeCapture tr with
          refusal := .none
          windowOpen := false
          stepStartSamples := s.engine.renderedSamples
          step := .measuringLow }
        soloed := [s.wizard.lowSideChannel]
        settled := 0
        askedSide := s.wizard.highPassSide } := by
  obtain ⟨harmed, -, hside, -⟩ := hs.playing (.inl hhigh)
  refine ⟨hs.main_inRange, hs.sub_inRange, hs.main_ne_sub,
    fun _ => ⟨(soloOutput_armed _ _).trans harmed, hside, hside, ?_⟩, fun _ => ?_⟩
  · have hout := outputFor_inRange hs.main_inRange hs.sub_inRange s.wizard.highPassSide
      .measuringLow
    rw [outputFor_low] at hout
    show OnlyRouted _ (outputFor s.wizard.config s.wizard.highPassSide .measuringLow)
    rw [outputFor_low]
    exact onlyRouted_soloOutput _ hout
  · show if s.wizard.highPassSide = some .main then
        (s.wizard.storeCapture tr).mainCapture.isSome = true
      else (s.wizard.storeCapture tr).subCapture.isSome = true
    by_cases hmain : s.wizard.highPassSide = some .main
    · simp [hmain, storeCapture, intoMain, hhigh]
    · simp [hmain, storeCapture, intoMain, hhigh]

theorem AcceptInv.pair_isSome (hs : AcceptInv s)
    (hlow : s.wizard.step = .measuringLow) (hsame : s.wizard.highPassSide = s.askedSide)
    (tr : Trace) : ∃ p, (s.wizard.storeCapture tr).pair = some p := by
  have hcap := hs.captured hlow
  rw [← hsame] at hcap
  by_cases hmain : s.wizard.highPassSide = some .main
  · rw [if_pos hmain] at hcap
    obtain ⟨c, hc⟩ := Option.isSome_iff_exists.mp hcap
    simp [AlignmentWizard.pair, storeCapture, intoMain, hmain, hlow, hc]
  · rw [if_neg hmain] at hcap
    obtain ⟨c, hc⟩ := Option.isSome_iff_exists.mp hcap
    simp [AlignmentWizard.pair, storeCapture, intoMain, hmain, hlow, hc]

theorem stepAfterFit_not_side {w w' : AlignmentWizard Src Ir} (h : w.step = w'.stepAfterFit) :
    w.step ≠ .measuringHigh ∧ w.step ≠ .measuringLow := by
  rcases stepAfterFit_cases w' with hs | hs | hs <;> simp [h, hs]

theorem AcceptInv.next [AudioSource Src] (hs : AcceptInv s)
    (dsp : AlignDsp Ir) (a : WizardAct Src Ir) (hok : CapturesUsable s a (s.next dsp a)) :
    AcceptInv (s.next dsp a) := by
  cases a with
  | answerHighPassSide side =>
    exact hs.congr rfl (fun _ => rfl) rfl rfl rfl (fun _ => rfl) rfl rfl
  | answerTopology topology => exact hs.congr rfl (fun _ => rfl) rfl rfl rfl id rfl rfl
  | answerInversion inversion => exact hs.congr rfl (fun _ => rfl) rfl rfl rfl id rfl rfl
  | answerCrossoverSeed hz => exact hs.congr rfl (fun _ => rfl) rfl rfl rfl id rfl rfl
  | answerCycle samples =>
    obtain ⟨-, -, hconfig, hside, -, hmain, hsub⟩ := answerCycle_frame s.wizard samples
    by_cases hstep : s.wizard.step = .askingCycle
    · refine hs.of_not_side hconfig ?_
      have hstep' := answerCycle_step s.wizard samples
      rw [hstep] at hstep'
      refine ⟨fun h => ?_, fun h => ?_⟩ <;> rw [WizardRun.next, hstep'] at h <;>
        split at h <;> cases h
    · exact hs.congr rfl (fun _ => rfl) rfl hconfig (answerCycle_step_of_ne _ _ hstep)
        (fun h => (congrArg Option.isSome hside).trans h) hmain hsub
  | supplyImpulseResponse source witness =>
    cases source with
    | main => exact hs.congr rfl (fun _ => rfl) rfl rfl rfl id rfl rfl
    | sub => exact hs.congr rfl (fun _ => rfl) rfl rfl rfl id rfl rfl
  | supplyWhitenedPeakSign sign => exact hs.congr rfl (fun _ => rfl) rfl rfl rfl id rfl rfl
  | arm =>
    by_cases hacc : ArmAccepts s.engine s.wizard
    · rw [WizardRun.next, arm_of_accepts hacc, if_pos hacc]
      exact hs.arm hacc
    · obtain ⟨r, hr⟩ := arm_of_not_accepts hacc
      rw [WizardRun.next, hr, if_neg hacc]
      exact hs.congr rfl (fun _ => rfl) rfl rfl rfl id rfl rfl
  | poll =>
    rw [WizardRun.next, AlignmentWizard.poll]
    split
    · exact hs
    · split
      · exact hs.congr rfl (fun _ => rfl) rfl rfl rfl id rfl rfl
      · exact hs
  | submitCapture tr =>
    by_cases hacc : s.wizard.Accepting
    · obtain ⟨hsame, hpair⟩ := hok hacc
      obtain ⟨hhigh | hlow, hwin⟩ := hacc
      · rw [WizardRun.next, submitCapture_of_high hhigh hwin, if_pos ⟨⟨.inl hhigh, hwin⟩, hhigh⟩]
        exact hs.submitHigh tr hhigh
      · rw [WizardRun.next, submitCapture_of_low hlow hwin, if_neg fun h => by simp [hlow] at h]
        -- a usable pair is fitted, and a fit leaves the measuring steps
        obtain ⟨p, hp⟩ := hs.pair_isSome hlow hsame tr
        obtain ⟨va, vb, hfit⟩ := compute_of_pairRefusal_none dsp
          (w := storeCapture { s.wizard with refusal := .none } tr) hp (hpair hlow p hp)
        rw [hfit]
        exact hs.of_not_side (computeFit_frame _ _ _ _ _ _).1.config
          (stepAfterFit_not_side (computeFit_step _ _ _ _ _ _))
    · obtain ⟨r, hr⟩ := submitCapture_of_not_accepting dsp s.engine tr hacc
      rw [WizardRun.next, hr, if_neg fun h => hacc h.1]
      exact hs.congr rfl (fun _ => rfl) rfl rfl rfl id rfl rfl
  | beginMeasuredSum =>
    by_cases hacc : s.wizard.SumAccepts
    · rw [WizardRun.next, beginMeasuredSum_of_accepts hacc, if_pos hacc]
      exact hs.of_not_side rfl ⟨by rintro ⟨⟩, by rintro ⟨⟩⟩
    · rw [WizardRun.next, beginMeasuredSum_of_not_accepts hacc, if_neg hacc]
      exact hs.congr rfl (fun _ => rfl) rfl rfl rfl id rfl rfl
  | submitMeasuredSum tr =>
    rw [WizardRun.next, submitMeasuredSum]
    split
    · exact hs.congr rfl (fun _ => rfl) rfl rfl rfl id rfl rfl
    · split
      · exact hs.congr rfl (fun _ => rfl) rfl rfl rfl id rfl rfl
      · exact hs.of_not_side rfl ⟨by rintro ⟨⟩, by rintro ⟨⟩⟩
  | cancel => exact .fresh hs.main_inRange hs.sub_inRange hs.main_ne_sub
  | restart source config => exact .fresh config.main_inRange config.sub_inRange config.main_ne_sub
  | render hasOutput channels samples =>
    exact hs.congr (s.engine.render_sameControl hasOutput channels samples).armed
      (s.engine.render_role hasOutput channels samples) rfl rfl rfl id rfl rfl

/-- In an invariant state a step has the property exactly when it meets the condition. -/
theorem AcceptInv.playing_iff_usable [AudioSource Src] (hs : AcceptInv s)
    (dsp : AlignDsp Ir) (a : WizardAct Src Ir) :
    CapturesWhilePlaying s a (s.next dsp a) ↔ CapturesUsable s a (s.next dsp a) := by
  constructor
  · rintro ⟨hcap, hstand⟩
    cases a with
    | submitCapture tr =>
      intro hacc
      obtain ⟨-, hasked, hside, hro⟩ := hs.playing hacc.1
      have hout := (hcap hacc).2.unique hro
      rw [sideOutput_eq _ hside] at hout
      refine ⟨outputFor_injective hs.main_ne_sub hside hasked hout, fun hlow p hp => ?_⟩
      -- a refused pair would leave the wizard accepting with the source stopped
      have hnext : s.next dsp (.submitCapture tr) =
          { s with
            engine := s.engine.disarmSource
            wizard := (storeCapture { s.wizard with refusal := .none } tr).compute dsp } := by
        rw [WizardRun.next, submitCapture_of_low hlow hacc.2, if_neg fun h => by simp [hlow] at h]
      rw [hnext] at hstand
      rcases compute_cases dsp (storeCapture { s.wizard with refusal := .none } tr) with
        ⟨a, b, va, vb, hpair, hr, -⟩ | ⟨-, r, hr⟩
      · obtain rfl : (a, b) = p := Option.some.inj (hpair.symm.trans hp)
        exact hr
      · have hstranded : ((storeCapture { s.wizard with refusal := .none } tr).compute
            dsp).Accepting := by
          rw [hr]
          exact hacc
        exact absurd (hstand hstranded) (by simp)
    | _ => trivial
  · intro hok
    have ht := hs.next dsp a hok
    refine ⟨?_, fun hacc => (ht.playing hacc.1).1⟩
    cases a with
    | submitCapture tr =>
      intro hacc
      obtain ⟨harmed, -, hside, hro⟩ := hs.playing hacc.1
      rw [sideOutput_eq _ hside, (hok hacc).1]
      exact ⟨harmed, hro⟩
    | _ => trivial

/-! ### The runs -/

/-- **Headline.** Along every run, captures are accepted only while the source is armed with
exactly their side's output routed, and the wizard never stands ready to accept one with the
excitation stopped, if and only if each capture it accepts is offered under the answer to question
(a) its step was soloed for, and each LOW capture makes a usable pair with the HIGH one. -/
theorem captures_while_playing_iff [AudioSource Src] (dsp : AlignDsp Ir) {s : WizardRun Src Ir}
    {acts : List (WizardAct Src Ir)} (hinit : (alignmentRuns Src dsp).init s) :
    (alignmentRuns Src dsp).AlongSteps CapturesWhilePlaying s acts ↔
      (alignmentRuns Src dsp).AlongSteps CapturesUsable s acts := by
  obtain ⟨e, source, config, rfl⟩ := hinit
  refine Machine.alongSteps_iff AcceptInv ?_ ?_
    (.fresh config.main_inRange config.sub_inRange config.main_ne_sub)
  · intro s a t hs ht hok
    cases ht
    exact hs.next dsp a hok
  · intro s a t hs ht
    cases ht
    exact hs.playing_iff_usable dsp a

/-- Both sides captured with a phase, each after its settle time. -/
def usableRun : List (WizardAct (RatedSource Unit) Unit) :=
  answers .main ++
    [.arm, .render true 2 480, .poll, .submitCapture phasedCapture,
      .render true 2 480, .poll, .submitCapture phasedCapture]

theorem captures_while_playing_usableRun :
    (((alignmentRuns (RatedSource Unit) (steadyDsp .positive)).exec
        (.fresh make none (stereoConfig 48000).toAlignConfig) usableRun).map
        fun s => s.wizard.step) = some .askingCycle ∧
      (alignmentRuns (RatedSource Unit) (steadyDsp .positive)).AlongSteps CapturesWhilePlaying
        (.fresh make none (stereoConfig 48000).toAlignConfig) usableRun :=
  ⟨by decide +kernel,
    (captures_while_playing_iff _ ⟨_, _, stereoConfig 48000, rfl⟩).mpr (by decide +kernel)⟩

/-- The LOW capture comes without a phase and is refused; the next one is accepted all the same,
from a source that stopped two blocks ago. -/
def refusedRun : List (WizardAct (RatedSource Unit) Unit) :=
  answers .main ++
    [.arm, .render true 2 480, .poll, .submitCapture phasedCapture,
      .render true 2 480, .poll, .submitCapture (shortCapture [] (.inl rfl)),
      .render true 2 480, .render true 2 480, .submitCapture phasedCapture]

theorem capture_accepted_while_stopped :
    ¬ ∀ (s : WizardRun (RatedSource Unit) Unit) (acts : List (WizardAct (RatedSource Unit) Unit)),
      (alignmentRuns (RatedSource Unit) (steadyDsp .positive)).init s →
      (alignmentRuns (RatedSource Unit) (steadyDsp .positive)).AlongSteps CapturesWhilePlaying s
        acts := by
  intro h
  refine absurd (h (.fresh make none (stereoConfig 48000).toAlignConfig) refusedRun
    ⟨_, _, _, rfl⟩) ?_
  decide +kernel

end WizardRun

end RtaTool
