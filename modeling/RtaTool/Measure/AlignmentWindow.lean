import RtaTool.Measure.AlignmentRuns

/-!
# When the capture window opens

Each solo re-ramps a different output gate, so each step waits out its own settle time. The wizard
measures it as a difference of two readings of the engine's counter, taken as unsigned 64-bit
numbers.

`beginMeasuredSum` arms first and reads the step's start afterwards, from a counter that has just
been zeroed. `arm` reads it first: the start is whatever the counter was before, the counter then
falls to zero, and the difference wraps to nearly `2 ^ 64`. The window of the first step opens at
the first poll, on a loudspeaker that has not played a sample.

Nothing is wrong when the counter is zero at `arm` -- a fresh engine -- and that is exactly the
condition. Every later step of the run, and the measured sum, are sound as they are.

## Main definitions

* `WindowAfterSettle` -- the property, on steps
* `ArmsFromZero` -- the permission, on steps
* `WindowInv` -- the invariant

## Main results

* `window_opens_after_settle` -- the property along every permitted run
* `first_window_iff` -- from a wizard ready to arm, the permission is exact
-/

namespace RtaTool

open OutputEngine AlignmentWizard

namespace WizardRun

variable {Src Ir : Type}

/-- An open window has its settle time behind it: that many samples were rendered with the step's
outputs soloed and the source armed. -/
def WindowAfterSettle (_ : WizardRun Src Ir) (_ : WizardAct Src Ir) (t : WizardRun Src Ir) : Prop :=
  t.wizard.Measuring → t.wizard.windowOpen = true →
    (neededSamples t.wizard.config).toNat ≤ t.settled

/-- An accepted `arm` finds the counter at zero, or has nothing to wait for. -/
def ArmsFromZero (s : WizardRun Src Ir) (a : WizardAct Src Ir) (_ : WizardRun Src Ir) : Prop :=
  match a with
  | .arm => ArmAccepts s.engine s.wizard →
      s.engine.renderedSamples = 0 ∨ neededSamples s.wizard.config = 0
  | _ => True

instance (s : WizardRun Src Ir) (a : WizardAct Src Ir) (t : WizardRun Src Ir) :
    Decidable (WindowAfterSettle s a t) :=
  inferInstanceAs (Decidable (_ → _ → _))

instance (s : WizardRun Src Ir) (a : WizardAct Src Ir) (t : WizardRun Src Ir) :
    Decidable (ArmsFromZero s a t) :=
  match a with
  | .arm => inferInstanceAs (Decidable (_ → _ ∨ _))
  | .answerHighPassSide _ | .answerTopology _ | .answerInversion _ | .answerCrossoverSeed _
  | .answerCycle _ | .supplyImpulseResponse _ _ | .supplyWhitenedPeakSign _ | .poll
  | .submitCapture _ | .beginMeasuredSum | .submitMeasuredSum _ | .cancel | .restart _ _
  | .render _ _ _ => inferInstanceAs (Decidable True)

/-! ### The invariant -/

/-- The invariant of the window. While it is closed the counter keeps exact account, modulo
`2 ^ 64`, of what has been rendered for the step; once it is open the account has been closed. -/
structure WindowInv (s : WizardRun Src Ir) : Prop where
  high_armed : s.wizard.step = .measuringHigh → s.engine.armed = true
  closed : s.wizard.Measuring → s.wizard.windowOpen = false →
    s.engine.armed = true ∧ SoloedOn s.engine s.soloed ∧
      (neededSamples s.wizard.config = 0 ∨
        s.engine.renderedSamples = s.wizard.stepStartSamples + UInt64.ofNat s.settled)
  opened : s.wizard.Measuring → s.wizard.windowOpen = true →
    (neededSamples s.wizard.config).toNat ≤ s.settled

theorem WindowInv.of_not_measuring {t : WizardRun Src Ir} (h : ¬ t.wizard.Measuring) :
    WindowInv t where
  high_armed hstep := absurd (.inl hstep) h
  closed hm := absurd hm h
  opened hm := absurd hm h

/-- What the wizard is asked or told does not reach the invariant. -/
theorem WindowInv.congr {s t : WizardRun Src Ir} (hs : WindowInv s) (he : t.engine = s.engine)
    (hsoloed : t.soloed = s.soloed) (hsettled : t.settled = s.settled)
    (hstep : t.wizard.step = s.wizard.step) (hwin : t.wizard.windowOpen = s.wizard.windowOpen)
    (hstart : t.wizard.stepStartSamples = s.wizard.stepStartSamples)
    (hconfig : t.wizard.config = s.wizard.config) : WindowInv t := by
  obtain ⟨hhigh, hclosed, hopened⟩ := hs
  constructor
  · rw [hstep, he]
    exact hhigh
  · simpa only [Measuring, hstep, hwin, he, hsoloed, hsettled, hstart, hconfig] using hclosed
  · simpa only [Measuring, hstep, hwin, hsettled, hconfig] using hopened

section

variable (w : AlignmentWizard Src Ir) (samples : Option ℤ)

theorem answerCycle_frame :
    (w.answerCycleOffsetSamples samples).windowOpen = w.windowOpen ∧
      (w.answerCycleOffsetSamples samples).stepStartSamples = w.stepStartSamples ∧
      (w.answerCycleOffsetSamples samples).config = w.config ∧
      (w.answerCycleOffsetSamples samples).highPassSide = w.highPassSide ∧
      (w.answerCycleOffsetSamples samples).signals = w.signals ∧
      (w.answerCycleOffsetSamples samples).mainCapture = w.mainCapture ∧
      (w.answerCycleOffsetSamples samples).subCapture = w.subCapture := by
  rw [answerCycleOffsetSamples.eq_def]
  split
  · exact ⟨rfl, rfl, rfl, rfl, rfl, rfl, rfl⟩
  · split <;> exact ⟨rfl, rfl, rfl, rfl, rfl, rfl, rfl⟩

theorem answerCycle_step :
    (w.answerCycleOffsetSamples samples).step =
      if samples.isSome ∧ w.step = .askingCycle then .computed else w.step := by
  rw [answerCycleOffsetSamples.eq_def]
  split
  · simp
  · split <;> simp_all

theorem answerCycle_step_of_ne
    (h : w.step ≠ .askingCycle) : (w.answerCycleOffsetSamples samples).step = w.step := by
  rw [answerCycle_step, if_neg fun hc => h hc.2]

end

theorem not_measuring_stepAfterFit {w w' : AlignmentWizard Src Ir}
    (h : w.step = w'.stepAfterFit) : ¬ w.Measuring := by
  rintro (hm | hm | hm) <;> rcases stepAfterFit_cases w' with hs | hs | hs <;>
    simp [h, hs] at hm

/-- The wizard after the LOW capture: fitted and out of the measuring steps, or refused and still
standing there. -/
theorem compute_cases (dsp : AlignDsp Ir) (w : AlignmentWizard Src Ir) :
    (∃ a b va vb, w.pair = some (a, b) ∧ pairRefusal a b = .none ∧
      w.compute dsp = w.computeFit dsp a b va vb) ∨
    ((∀ a b, w.pair = some (a, b) → pairRefusal a b ≠ .none) ∧
      ∃ r, w.compute dsp = { w with refusal := r }) := by
  by_cases h : ∃ a b, w.pair = some (a, b) ∧ pairRefusal a b = .none
  · obtain ⟨a, b, hpair, hr⟩ := h
    obtain ⟨va, vb, hfit⟩ := compute_of_pairRefusal_none dsp hpair hr
    exact .inl ⟨a, b, va, vb, hpair, hr, hfit⟩
  · have hne : ∀ a b, w.pair = some (a, b) → pairRefusal a b ≠ .none :=
      fun a b hpair hr => h ⟨a, b, hpair, hr⟩
    exact .inr ⟨hne, compute_of_refused dsp hne⟩

theorem fresh_not_measuring (e : OutputEngine Src) (source : Option Src) (config : AlignConfig) :
    ¬ (fresh e source config : WizardRun Src Ir).wizard.Measuring := by
  rintro (h | h | h) <;> cases h

variable {s : WizardRun Src Ir}

theorem WindowInv.poll (hs : WindowInv s) :
    WindowInv { s with wizard := AlignmentWizard.poll s.engine s.wizard } := by
  rw [AlignmentWizard.poll]
  split
  · exact hs
  · rename_i hm
    have hm := not_not.mp hm
    split
    · rename_i hneeded
      refine ⟨hs.high_armed, fun _ h => absurd h (by simp), fun _ _ => ?_⟩
      cases hwin : s.wizard.windowOpen with
      | true => exact hs.opened hm hwin
      | false =>
        obtain ⟨-, -, hzero | hcount⟩ := hs.closed hm hwin
        · simp [hzero]
        · rw [hcount] at hneeded
          have hdiff : s.wizard.stepStartSamples + UInt64.ofNat s.settled -
              s.wizard.stepStartSamples = UInt64.ofNat s.settled := by
            rw [UInt64.add_comm, UInt64.add_sub_cancel]
          rw [hdiff, UInt64.le_iff_toNat_le, UInt64.toNat_ofNat'] at hneeded
          exact hneeded.trans (Nat.mod_le _ _)
    · exact hs

theorem WindowInv.render [AudioSource Src] (hs : WindowInv s)
    (dsp : AlignDsp Ir) (hasOutput : Bool) (channels samples : ℤ) :
    WindowInv (s.next dsp (.render hasOutput channels samples)) := by
  have hctl := s.engine.render_sameControl hasOutput channels samples
  have hrole := s.engine.render_role hasOutput channels samples
  refine ⟨fun h => hctl.armed.trans (hs.high_armed h), fun hm hwin => ?_, fun hm hwin => ?_⟩
  · obtain ⟨harmed, hsolo, hcount⟩ := hs.closed hm hwin
    refine ⟨hctl.armed.trans harmed, (soloedOn_congr hrole).mpr hsolo, hcount.imp id fun hc => ?_⟩
    rw [next, if_pos ⟨harmed, hsolo⟩]
    show (s.engine.render hasOutput channels samples).renderedSamples = _
    rw [render_renderedSamples, hc, UInt64.ofNat_add, UInt64.add_assoc]
  · exact (hs.opened hm hwin).trans (Nat.le_add_right _ _)

theorem WindowInv.next [AudioSource Src] (hs : WindowInv s)
    (dsp : AlignDsp Ir) (a : WizardAct Src Ir) (hok : ArmsFromZero s a (s.next dsp a)) :
    WindowInv (s.next dsp a) := by
  cases a with
  | answerHighPassSide side => exact hs.congr rfl rfl rfl rfl rfl rfl rfl
  | answerTopology topology => exact hs.congr rfl rfl rfl rfl rfl rfl rfl
  | answerInversion inversion => exact hs.congr rfl rfl rfl rfl rfl rfl rfl
  | answerCrossoverSeed hz => exact hs.congr rfl rfl rfl rfl rfl rfl rfl
  | answerCycle samples =>
    obtain ⟨hwin, hstart, hconfig, -⟩ := answerCycle_frame s.wizard samples
    by_cases hstep : s.wizard.step = .askingCycle
    · have hstep' := answerCycle_step s.wizard samples
      refine .of_not_measuring ?_
      rintro (h | h | h) <;> rw [WizardRun.next, hstep', hstep] at h <;> split at h <;> cases h
    · exact hs.congr rfl rfl rfl (answerCycle_step_of_ne _ _ hstep) hwin hstart hconfig
  | supplyImpulseResponse source witness =>
    cases source with
    | main => exact hs.congr rfl rfl rfl rfl rfl rfl rfl
    | sub => exact hs.congr rfl rfl rfl rfl rfl rfl rfl
  | supplyWhitenedPeakSign sign => exact hs.congr rfl rfl rfl rfl rfl rfl rfl
  | arm =>
    by_cases hacc : ArmAccepts s.engine s.wizard
    · have hzero := hok hacc
      rw [WizardRun.next, arm_of_accepts hacc, if_pos hacc]
      refine ⟨fun _ => rfl, fun _ _ => ⟨rfl, ?_, ?_⟩, fun _ h => absurd h (by simp [resolo])⟩
      · exact (soloedOn_congr fun ch => armSource_role _ ch).mpr (soloedOn_soloOutput _ _)
      · -- the start was read from a counter that was zero already
        refine hzero.symm.imp id fun hz => ?_
        show (0 : UInt64) = s.engine.renderedSamples + UInt64.ofNat 0
        rw [hz]
        rfl
    · obtain ⟨r, hr⟩ := arm_of_not_accepts hacc
      rw [WizardRun.next, hr, if_neg hacc]
      exact hs.congr rfl rfl rfl rfl rfl rfl rfl
  | poll => exact hs.poll
  | submitCapture tr =>
    by_cases hacc : s.wizard.Accepting
    · obtain ⟨hhigh | hlow, hwin⟩ := hacc
      · rw [WizardRun.next, submitCapture_of_high hhigh hwin, if_pos ⟨⟨.inl hhigh, hwin⟩, hhigh⟩]
        refine ⟨fun h => (nomatch h), fun _ _ => ⟨?_, soloedOn_soloOutput _ _, .inr ?_⟩,
          fun _ h => absurd h (by simp [resolo])⟩
        · exact (soloOutput_armed _ _).trans (hs.high_armed hhigh)
        · show (s.engine.soloOutput _).renderedSamples = s.engine.renderedSamples + UInt64.ofNat 0
          rw [soloOutput_renderedSamples]
          exact (UInt64.add_zero _).symm
      · rw [WizardRun.next, submitCapture_of_low hlow hwin, if_neg fun h => by simp [hlow] at h]
        rcases compute_cases dsp (storeCapture { s.wizard with refusal := .none } tr) with
          ⟨a, b, va, vb, -, -, hfit⟩ | ⟨-, r, hr⟩
        · rw [hfit]
          exact .of_not_measuring (not_measuring_stepAfterFit (computeFit_step _ _ _ _ _ _))
        · rw [hr]
          exact ⟨fun h => (nomatch hlow.symm.trans h), fun _ h => (nomatch hwin.symm.trans h),
            fun _ _ => hs.opened (.inr (.inl hlow)) hwin⟩
    · obtain ⟨r, hr⟩ := submitCapture_of_not_accepting dsp s.engine tr hacc
      rw [WizardRun.next, hr, if_neg fun h => hacc h.1]
      exact hs.congr rfl rfl rfl rfl rfl rfl rfl
  | beginMeasuredSum =>
    by_cases hacc : s.wizard.SumAccepts
    · rw [WizardRun.next, beginMeasuredSum_of_accepts hacc, if_pos hacc]
      refine ⟨fun h => (nomatch h), fun _ _ => ⟨rfl, ?_, .inr rfl⟩,
        fun _ h => absurd h (by simp [resolo])⟩
      exact (soloedOn_congr fun ch => armSource_role _ ch).mpr (soloedOn_sum _ _ _)
    · rw [WizardRun.next, beginMeasuredSum_of_not_accepts hacc, if_neg hacc]
      exact hs.congr rfl rfl rfl rfl rfl rfl rfl
  | submitMeasuredSum tr =>
    rw [WizardRun.next, submitMeasuredSum]
    split
    · exact hs.congr rfl rfl rfl rfl rfl rfl rfl
    · split
      · exact hs.congr rfl rfl rfl rfl rfl rfl rfl
      · exact .of_not_measuring (by rintro (h | h | h) <;> cases h)
  | cancel => exact .of_not_measuring (fresh_not_measuring _ _ _)
  | restart source config => exact .of_not_measuring (fresh_not_measuring _ _ _)
  | render hasOutput channels samples => exact hs.render dsp hasOutput channels samples

/-! ### The runs -/

/-- **Headline.** Over any engine, and in any order of answers, arms, polls, captures, sums,
cancels, restarts and blocks in which each accepted `arm` finds the engine's counter at zero, the
window of a step is open only after the step's settle time has been rendered with exactly the
step's outputs routed and the source armed. -/
theorem window_opens_after_settle [AudioSource Src] (dsp : AlignDsp Ir) {s : WizardRun Src Ir}
    {acts : List (WizardAct Src Ir)} (hinit : (alignmentRuns Src dsp).init s)
    (hok : (alignmentRuns Src dsp).AlongSteps ArmsFromZero s acts) :
    (alignmentRuns Src dsp).AlongSteps WindowAfterSettle s acts := by
  obtain ⟨e, source, config, rfl⟩ := hinit
  refine Machine.AlongSteps.of_invariant WindowInv ?_
    (.of_not_measuring (fresh_not_measuring _ _ _)) hok
  intro s a t hs ht hok
  cases ht
  have ht := hs.next dsp a hok
  exact ⟨ht, ht.opened⟩

/-- A fresh engine: each window opens after its 480 samples and not before. -/
def settledRun : List (WizardAct (RatedSource Unit) Unit) :=
  answers .main ++ [.arm, .poll, .render true 2 479, .poll, .render true 2 1, .poll]

theorem window_opens_after_settle_fresh_engine :
    (((alignmentRuns (RatedSource Unit) (steadyDsp .positive)).exec
        (.fresh make none (stereoConfig 48000).toAlignConfig) settledRun).map
        fun s => (s.wizard.windowOpen, s.settled)) = some (true, 480) ∧
      (alignmentRuns (RatedSource Unit) (steadyDsp .positive)).AlongSteps WindowAfterSettle
        (.fresh make none (stereoConfig 48000).toAlignConfig) settledRun :=
  ⟨by decide +kernel,
    window_opens_after_settle _ ⟨_, _, stereoConfig 48000, rfl⟩ (by decide +kernel)⟩

/-- The same wizard over an engine that has rendered one second since it was last armed: the first
poll opens the window with nothing played. -/
theorem window_opens_unsettled :
    ¬ ∀ (s : WizardRun (RatedSource Unit) Unit) (acts : List (WizardAct (RatedSource Unit) Unit)),
      (alignmentRuns (RatedSource Unit) (steadyDsp .positive)).init s →
      (alignmentRuns (RatedSource Unit) (steadyDsp .positive)).AlongSteps WindowAfterSettle s
        acts := by
  intro h
  refine absurd (h (.fresh { make with renderedSamples := 48000 } none
    (stereoConfig 48000).toAlignConfig) (answers .main ++ [.arm, .poll]) ⟨_, _, _, rfl⟩) ?_
  decide +kernel

/-! ### The permission is exact -/

/-- The length of a block after which the wrapped difference reaches `needed` too early: none at
all, unless the old count was within `needed` of coming round. -/
def earlyBlock (start needed : UInt64) : ℕ := needed.toNat - (2 ^ 64 - start.toNat)

theorem earlyBlock_lt (start : UInt64) {needed : UInt64} (hneeded : needed ≠ 0) :
    earlyBlock start needed < needed.toNat := by
  have hpos : 0 < needed.toNat := by
    rw [Nat.pos_iff_ne_zero]
    exact fun h => hneeded (UInt64.toNat_inj.mp h)
  have hstart := start.toNat_lt
  rw [earlyBlock]
  omega

theorem le_sub_earlyBlock {start needed : UInt64} (hstart : start ≠ 0) :
    needed ≤ UInt64.ofNat (earlyBlock start needed) - start := by
  have hpos : 0 < start.toNat := by
    rw [Nat.pos_iff_ne_zero]
    exact fun h => hstart (UInt64.toNat_inj.mp h)
  have hs := start.toNat_lt
  have hn := needed.toNat_lt
  have hearly : earlyBlock start needed < start.toNat := by
    rw [earlyBlock]
    omega
  rw [UInt64.le_iff_toNat_le, UInt64.toNat_sub, UInt64.toNat_ofNat',
    Nat.mod_eq_of_lt (hearly.trans hs), Nat.mod_eq_of_lt (by omega)]
  rw [earlyBlock] at hearly ⊢
  omega

theorem armedEngine_needsRender {e : OutputEngine Src} {w : AlignmentWizard Src Ir}
    (h : ArmAccepts e w) : (armedEngine e w).needsRender = true := by
  have hset := setSource_eq e w.source
  rw [if_pos ⟨h.2.2.1, h.2.2.2⟩] at hset
  rw [armedEngine, hset, soloOutput]
  simp [needsRender, wantsPlaying, armSource]

theorem samplesRendered_le (e : OutputEngine Src) (hasOutput : Bool) (n : ℕ) :
    e.samplesRendered hasOutput n ≤ n := by
  rw [samplesRendered]
  split
  · exact le_rfl
  · exact Nat.zero_le _

/-- From a wizard that is ready to arm, the window waits out the settle time -- whatever block is
rendered before the poll -- if and only if the counter is at zero or there is nothing to wait
for. -/
theorem first_window_iff [AudioSource Src] (dsp : AlignDsp Ir)
    (hacc : ArmAccepts s.engine s.wizard) :
    (∀ samples, (alignmentRuns Src dsp).AlongSteps WindowAfterSettle s
        [.arm, .render true 2 samples, .poll]) ↔
      s.engine.renderedSamples = 0 ∨ neededSamples s.wizard.config = 0 := by
  constructor
  · intro hall
    by_contra hne
    obtain ⟨hstart, hneeded⟩ := not_or.mp hne
    obtain ⟨block, hblock⟩ :
        ∃ n, n = earlyBlock s.engine.renderedSamples (neededSamples s.wizard.config) := ⟨_, rfl⟩
    have hpoll := (((hall block).tail rfl).tail rfl).head rfl
    have hwizard : (s.next dsp .arm).wizard = { s.wizard with
        refusal := .none
        windowOpen := false
        stepStartSamples := s.engine.renderedSamples
        step := .measuringHigh } := by
      rw [WizardRun.next, arm_of_accepts hacc, if_pos hacc]
      rfl
    have hengine : (s.next dsp .arm).engine = armedEngine s.engine s.wizard := by
      rw [WizardRun.next, arm_of_accepts hacc, if_pos hacc]
      rfl
    have hsettled : (s.next dsp .arm).settled = 0 := by
      rw [WizardRun.next, arm_of_accepts hacc, if_pos hacc]
      rfl
    generalize s.next dsp .arm = armed at hpoll hwizard hengine hsettled
    -- the counter reads `block`, the step's start still the old count
    have hcount : (armed.next dsp (.render true 2 block)).engine.renderedSamples =
        UInt64.ofNat block := by
      show (armed.engine.render true 2 block).renderedSamples = _
      rw [hengine, render_renderedSamples, samplesRendered, armedEngine_needsRender hacc]
      simp [armedEngine]
    have hwait : (armed.next dsp (.render true 2 block)).settled ≤ block := by
      show armed.settled + (if _ then _ else 0) ≤ block
      rw [hsettled, Nat.zero_add]
      split
      · exact samplesRendered_le _ _ _
      · exact Nat.zero_le _
    have hkeep : (armed.next dsp (.render true 2 block)).wizard = armed.wizard := rfl
    generalize armed.next dsp (.render true 2 block) = rendered at hpoll hcount hwait hkeep
    have hopen : AlignmentWizard.poll rendered.engine rendered.wizard =
        { rendered.wizard with windowOpen := true } := by
      have hm : rendered.wizard.Measuring := by
        rw [hkeep, hwizard]
        exact .inl rfl
      rw [AlignmentWizard.poll, if_neg (not_not.mpr hm), if_pos]
      rw [hcount, hkeep, hwizard, hblock]
      exact le_sub_earlyBlock hstart
    have hlate := hpoll ?_ ?_
    · have hlt := earlyBlock_lt s.engine.renderedSamples hneeded
      rw [← hblock] at hlt
      have hconfig : (rendered.next dsp .poll).wizard.config = s.wizard.config := by
        rw [WizardRun.next, hopen, hkeep, hwizard]
      rw [hconfig] at hlate
      exact absurd (hlate.trans hwait) (Nat.not_le.mpr hlt)
    · rw [WizardRun.next, hopen, hkeep, hwizard]
      exact .inl rfl
    · rw [WizardRun.next, hopen]
  · intro hzero samples
    have hidle : ¬ s.wizard.Measuring := by
      rintro (h | h | h) <;> cases hacc.1.symm.trans h
    have hok : (alignmentRuns Src dsp).AlongSteps ArmsFromZero s
        [.arm, .render true 2 samples, .poll] := by
      refine Machine.alongSteps_cons.mpr fun t _ => ⟨fun _ => hzero, ?_⟩
      refine Machine.alongSteps_cons.mpr fun _ _ => ⟨trivial, ?_⟩
      exact Machine.alongSteps_cons.mpr fun _ _ => ⟨trivial, trivial⟩
    refine Machine.AlongSteps.of_invariant WindowInv ?_ (.of_not_measuring hidle) hok
    intro s a t hs ht hok
    cases ht
    have ht := hs.next dsp a hok
    exact ⟨ht, ht.opened⟩

end WizardRun

end RtaTool
