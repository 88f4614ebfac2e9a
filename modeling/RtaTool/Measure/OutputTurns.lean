import RtaTool.Measure.CaptureRuns
import RtaTool.Measure.MainOutput

/-!
# Taking turns

The argument has one shape for all six features. While another feature is active, a call of this one
is refused by its guard or finds nothing of its own to do: it leaves the engine and the accumulator
where they are. Otherwise the call has both to itself, and all that is asked of it is that an engine
it leaves armed has its own source.

The second half needs a little more than that, since a feature may be active with the engine
disarmed: SWEEP before it plays has its source in the slot already, and SWEEP while it analyses, a
VERIFY that settles and a GEN that stops have disarmed the engine, so that each can end without a
further look at it.

## Main definitions

* `EqVerifyRunner.Move`, `AlignRunner.Move` -- what a poll does to the engine
* `HoldsOutput` -- the invariant
* `Turn` -- a call of one feature

## Main results

* `HoldsOutput.turn`, `Turn.leaves` -- what every call keeps
* `outputBusy_eq_false_iff`, `free_of_outputHolderName` -- whom the guards ask
-/

namespace RtaTool

open OutputEngine

/-! ### What the calls of the runners do to the engine -/

namespace OutputEngine

variable {Src : Type}

theorem armSource_slot (e : OutputEngine Src) : e.armSource.slot = e.slot := rfl

theorem soloOutput_slot (e : OutputEngine Src) (ch : ℤ) : (e.soloOutput ch).slot = e.slot :=
  routeEach_slot _ e

end OutputEngine

/-- What a poll of VERIFY does to the engine. -/
inductive EqVerifyRunner.Move {Src Report : Type} (e : OutputEngine Src)
    (r : EqVerifyRunner Report) : OutputEngine Src × EqVerifyRunner Report → Prop
  | kept (r') (hstate : r'.state = r.state) : Move e r (e, r')
  | observed (r') (hwaiting : r.state = .waiting) (hstate : r'.state = .measuring) : Move e r (e, r')
  | settled (r') (hsettling : r.state = .settling) (hstate : r'.state = .done) : Move e r (e, r')
  | stopped (r') (hbusy : r.busy = true) : Move e r (e.disarmSource, r')

namespace EqVerifyRunner

variable {Src Report : Type}

/-- A check that is measured is measured on, or the engine is disarmed. -/
theorem move_of_submitOutcome {e : OutputEngine Src} {r r' : EqVerifyRunner Report} {h : HostView}
    {out : OutputEngine Src × EqVerifyRunner Report} (hout : SubmitOutcome e r' h out)
    (hbusy : r.busy = true) (hkept : Move e r (e, r')) : Move e r out := by
  cases hout with
  | waited hnot => exact hkept
  | aborted why hnot => exact .stopped _ hbusy
  | submitted v hready hv => exact .stopped _ hbusy

theorem poll_move (compare : TransferEstimate → EqPaneView → VerifyTolerance → Report)
    (e : OutputEngine Src) (r : EqVerifyRunner Report) (h : HostView) :
    Move e r (poll compare e r h) := by
  rw [poll]
  cases hverify : r.verify with
  | none => exact .kept r rfl
  | some v =>
    have hstate : r.state = v.state := by simp [state, hverify]
    dsimp only
    split
    · exact .kept r rfl
    · rename_i hbusy
      rw [Bool.not_eq_true, Bool.not_eq_false'] at hbusy
      split
      · exact .stopped _ hbusy
      · cases hv : v.state with
        | waiting =>
          dsimp only
          by_cases hsettle : EqVerify.settleSamples v.config ≤ e.renderedSamples.toNat
          · have hpoll : v.poll e = { v with state := .measuring } := by
              simp only [EqVerify.poll, hv, hsettle, if_true]
            rw [hpoll, if_neg (by simp)]
            exact move_of_submitOutcome (trySubmit_cases compare e _ rfl h) hbusy
              (.observed _ (hstate.trans hv) rfl)
          · have hpoll : v.poll e = v := by
              simp only [EqVerify.poll, hv, hsettle, if_false]
            rw [hpoll, if_pos hv]
            split
            · exact .stopped _ hbusy
            · exact .kept _ hstate.symm
        | measuring =>
          exact move_of_submitOutcome (trySubmit_cases compare e r hv h) hbusy (.kept r rfl)
        | settling =>
          dsimp only
          split
          · rename_i hdone
            exact .settled _ (hstate.trans hv) hdone
          · rename_i hdone
            refine .kept _ (Eq.trans ?_ hstate.symm)
            show (v.poll e).state = v.state
            revert hdone
            simp only [EqVerify.poll, hv]
            split <;> simp [hv]
        | idle => exact .kept r rfl
        | done => exact .kept r rfl

end EqVerifyRunner

/-- What a poll of ALIGN does to the engine. -/
inductive AlignRunner.Move {Src Ir : Type} (e : OutputEngine Src) (r : AlignRunner Src Ir) :
    OutputEngine Src × AlignRunner Src Ir → Prop
  | kept (r') (hmeasuring : r'.measuring = r.measuring) : Move e r (e, r')
  | soloed (r') (ch : ℤ) (hmeasuring : r.measuring = true) (hstays : r'.measuring = true) :
      Move e r (e.soloOutput ch, r')
  | stopped (r') (hmeasuring : r.measuring = true) : Move e r (e.disarmSource, r')

namespace AlignRunner

variable {Src Ir : Type} {e : OutputEngine Src} {r : AlignRunner Src Ir}

variable {w : AlignmentWizard Src Ir}

theorem measuring_of_wizard (h : r.wizard = some w) :
    r.measuring = decide w.Measuring := by
  rw [measuring, h]
  rfl

theorem wizard_poll_step (e : OutputEngine Src) (w : AlignmentWizard Src Ir) :
    (AlignmentWizard.poll e w).step = w.step := by
  rw [AlignmentWizard.poll]
  split
  · rfl
  · split <;> rfl

theorem move_afterSubmit (hmeasuring : r.measuring = true) (r' : AlignRunner Src Ir)
    (w : AlignmentWizard Src Ir) (h : AlignView) : Move e r (afterSubmit e.disarmSource r' w h) := by
  rw [afterSubmit]
  dsimp only
  split
  · exact .stopped _ hmeasuring
  · split
    · exact .stopped _ hmeasuring
    · split
      · exact .stopped _ hmeasuring
      · split
        · exact .stopped _ hmeasuring
        · split <;> exact .stopped _ hmeasuring

/-- A submission moves the solo from the first loudspeaker to the second, or it is the last. -/
theorem move_submit (dsp : AlignDsp Ir) (hmeasuring : r.measuring = true)
    (r' : AlignRunner Src Ir) (hw : w.Measuring)
    (hwindow : w.windowOpen = true) (h : AlignView) (tr : Trace) :
    Move e r (submit dsp e r' w h tr) := by
  rw [submit]
  rcases hw with hstep | hstep | hstep
  · rw [if_neg (by simp [hstep]), AlignmentWizard.submitCapture_of_high hstep hwindow]
    dsimp only
    rw [if_neg (by simp), afterSubmit]
    dsimp only
    rw [if_pos rfl]
    exact .soloed _ _ hmeasuring rfl
  · rw [if_neg (by simp [hstep]), AlignmentWizard.submitCapture_of_low hstep hwindow]
    dsimp only
    split
    · exact .stopped _ hmeasuring
    · exact move_afterSubmit hmeasuring _ _ h
  · rw [if_pos hstep, AlignmentWizard.submitMeasuredSum, if_neg (by simp [hstep]),
      if_neg (by simp [hwindow])]
    exact .stopped _ hmeasuring

theorem poll_move (dsp : AlignDsp Ir) (e : OutputEngine Src) (r : AlignRunner Src Ir)
    (h : AlignView) : Move e r (poll dsp e r h) := by
  rw [poll]
  split
  · exact .kept r rfl
  · rename_i w hw
    obtain ⟨hwizard, hstep⟩ := Option.filter_eq_some_iff.mp hw
    have hmeasuring : r.measuring = true := (measuring_of_wizard hwizard).trans hstep
    have hpolled : (AlignmentWizard.poll e w).Measuring := by
      rw [AlignmentWizard.Measuring, wizard_poll_step]
      exact of_decide_eq_true hstep
    split
    · exact .stopped _ hmeasuring
    · split
      · exact .stopped _ hmeasuring
      · split
        · exact .stopped _ hmeasuring
        · rw [trySubmit]
          dsimp only
          split
          · split
            · exact .stopped _ hmeasuring
            · exact .kept _ ((measuring_of_wizard rfl).trans
                ((decide_eq_true hpolled).trans hmeasuring.symm))
          · exact .stopped _ hmeasuring
          · rename_i hresult
            exact move_submit dsp hmeasuring _ hpolled (tryResult_submit hresult).1 h _

theorem freshWizard_source (pinkNoise : UInt64 → ℚ → Src) (e : OutputEngine Src)
    (r : AlignRunner Src Ir) (h : AlignView) :
    (freshWizard pinkNoise e r h).source = some (pinkSource pinkNoise h) := by
  have hkept : ∀ (source : Source) (ir : Option (SweepWitness Ir)) (w : AlignmentWizard Src Ir),
      (supplyBoundIr e source ir w).source = w.source := by
    intro source ir w
    rw [supplyBoundIr.eq_def]
    split
    · rfl
    · split
      · rfl
      · cases source <;> rfl
  rw [freshWizard, supplyBoundIrs, hkept, hkept]

theorem armedEngine_slot (h : AlignmentWizard.ArmAccepts e w) :
    (AlignmentWizard.armedEngine e w).slot = w.source := by
  have hset := setSource_eq e w.source
  rw [if_pos h.2.2] at hset
  rw [AlignmentWizard.armedEngine, hset, armSource_slot, soloOutput_slot]

theorem sumEngine_slot (e : OutputEngine Src) (main sub : ℤ) :
    ((e.soloOutput main).applyToggle sub true .additive).armSource.slot = e.slot := by
  rw [armSource_slot, applyToggle, if_neg (by simp), routeOutput_frame]
  exact soloOutput_slot e main

end AlignRunner

namespace MainOutput

variable {Report Ir : Type} {s t u : MainOutput Report Ir} {f g : Feature}

/-! ### The invariant -/

/-- What an active feature owes while the engine is its own. -/
def Poised (s : MainOutput Report Ir) : Feature → Prop
  | .sweep =>
    (s.press.sweepArmed → s.engine.slot = some .sweep) ∧
      (s.press.sweep.state = .analysing → s.engine.armed = false)
  | .verify => s.verify.state = .settling → s.engine.armed = false
  | .generator => s.generator.state = .stopping → s.engine.armed = false
  | _ => True

/-- The source of a feature is in the slot, and the feature is active. -/
def Voices (s : MainOutput Report Ir) (f : Feature) : Prop :=
  s.Active f ∧ f.excitation.isSome = true ∧ s.engine.slot = f.excitation

/-- At most one feature is active, an armed engine is that feature's own, and all are poised. -/
structure HoldsOutput (s : MainOutput Report Ir) : Prop where
  exclusive : s.Exclusive
  voiced : s.engine.armed = true → ∃ f, s.Voices f
  poised : ∀ f, s.Poised f

/-- A feature that is not active owes nothing. -/
theorem poised_of_idle (h : ¬ s.Active f) : s.Poised f := by
  cases f with
  | locate => trivial
  | cal => trivial
  | align => trivial
  | sweep =>
    have hidle : s.press.sweep.state = .idle := by
      by_contra hne
      exact h (by simpa [Active, PressRun.sweepBusy] using hne)
    rw [Poised, PressRun.sweepArmed, hidle]
    exact ⟨(by rintro (h | h) <;> cases h), by rintro ⟨⟩⟩
  | verify =>
    intro hstate
    exact absurd (show s.verify.busy = true by simp [EqVerifyRunner.busy, hstate]) h
  | generator =>
    intro hstate
    exact absurd (show s.generatorActive = true by simp [generatorActive, hstate]) h

theorem HoldsOutput.playsOwn (hs : s.HoldsOutput) : s.PlaysOwn := by
  intro harmed
  obtain ⟨f, hactive, hsome, hslot⟩ := hs.voiced harmed
  exact ⟨f, hactive, fun g hg => hs.exclusive g f hg hactive, hsome, hslot⟩

/-- No feature but this one is active. -/
def Alone (s : MainOutput Report Ir) (f : Feature) : Prop := ∀ g, s.Active g → g = f

theorem HoldsOutput.alone (hs : s.HoldsOutput) (hf : s.Active f) : s.Alone f :=
  fun g hg => hs.exclusive g f hg hf

theorem HoldsOutput.voices (hs : s.HoldsOutput) (halone : s.Alone f)
    (harmed : s.engine.armed = true) : s.Voices f := by
  obtain ⟨g, hg⟩ := hs.voiced harmed
  obtain rfl := halone g hg.1
  exact hg

/-! ### Calls of one feature -/

/-- The state of a feature is the same. -/
def SameFeature (s t : MainOutput Report Ir) : Feature → Prop
  | .locate => t.press.locate = s.press.locate
  | .cal => t.press.cal = s.press.cal
  | .sweep => t.press.sweep = s.press.sweep
  | .verify => t.verify = s.verify
  | .align => t.align = s.align
  | .generator => t.generator = s.generator

theorem SameFeature.active_iff (h : s.SameFeature t f) : t.Active f ↔ s.Active f := by
  cases f with
  | locate => rw [Active, Active, PressRun.locateBusy, PressRun.locateBusy, h]
  | cal => rw [Active, Active, h]
  | sweep => rw [Active, Active, PressRun.sweepBusy, PressRun.sweepBusy, h]
  | verify => rw [Active, Active, h]
  | align => rw [Active, Active, h]
  | generator => rw [Active, Active, generatorActive, generatorActive, h]

theorem SameFeature.poised (h : s.SameFeature t f) (hslot : t.engine.slot = s.engine.slot)
    (harmed : t.engine.armed = true → s.engine.armed = true) (hs : s.Poised f) : t.Poised f := by
  have hdown : s.engine.armed = false → t.engine.armed = false := by
    intro hfalse
    refine Bool.eq_false_of_not_eq_true fun htrue => ?_
    rw [harmed htrue] at hfalse
    cases hfalse
  cases f with
  | locate => trivial
  | cal => trivial
  | align => trivial
  | sweep =>
    rw [Poised, PressRun.sweepArmed, h, hslot]
    exact ⟨hs.1, fun hstate => hdown (hs.2 hstate)⟩
  | verify =>
    rw [Poised, h]
    exact fun hstate => hdown (hs hstate)
  | generator =>
    rw [Poised, h]
    exact fun hstate => hdown (hs hstate)

/-- A call of one feature: the other five are as they were, while one of them is active the engine
and the accumulator are too, and alone it leaves an armed engine with its own source. -/
structure Turn (f : Feature) (s t : MainOutput Report Ir) : Prop where
  others : ∀ g, g ≠ f → s.SameFeature t g
  yields : ∀ g, s.Active g → g ≠ f →
    t.engine = s.engine ∧ t.press.path = s.press.path ∧ ¬ t.Active f
  voices : s.Alone f → t.engine.armed = true → t.Voices f
  poised : s.Alone f → t.Poised f

theorem Turn.leaves (h : Turn f s t) : Leaves f s t := by
  intro g hg hgf
  obtain ⟨hengine, hpath, -⟩ := h.yields g hg hgf
  exact ⟨hengine, hpath⟩

theorem Turn.active (h : Turn f s t) (hg : t.Active g) :
    s.Active g ∧ g ≠ f ∨ g = f ∧ s.Alone f := by
  by_cases hgf : g = f
  · refine .inr ⟨hgf, fun k hk => ?_⟩
    by_contra hkf
    obtain ⟨-, -, hidle⟩ := h.yields k hk hkf
    exact hidle (hgf ▸ hg)
  · exact .inl ⟨(h.others g hgf).active_iff.mp hg, hgf⟩

theorem HoldsOutput.turn (hs : s.HoldsOutput) (h : Turn f s t) : t.HoldsOutput where
  exclusive g k hg hk := by
    rcases h.active hg with ⟨hg, hgf⟩ | ⟨rfl, halone⟩
    · rcases h.active hk with ⟨hk, -⟩ | ⟨rfl, halone⟩
      · exact hs.exclusive g k hg hk
      · exact absurd (halone g hg) hgf
    · rcases h.active hk with ⟨hk, -⟩ | ⟨rfl, -⟩
      · exact (halone k hk).symm
      · rfl
  voiced harmed := by
    by_cases halone : s.Alone f
    · exact ⟨f, h.voices halone harmed⟩
    · simp only [Alone, not_forall] at halone
      obtain ⟨g, hg, hgf⟩ := halone
      obtain ⟨hengine, -, -⟩ := h.yields g hg hgf
      rw [hengine] at harmed
      obtain ⟨hactive, hsome, hslot⟩ := hs.voices (hs.alone hg) harmed
      exact ⟨g, (h.others g hgf).active_iff.mpr hactive, hsome, by rw [hengine]; exact hslot⟩
  poised g := by
    by_cases hg : t.Active g
    · rcases h.active hg with ⟨hg, hgf⟩ | ⟨rfl, halone⟩
      · obtain ⟨hengine, -, -⟩ := h.yields g hg hgf
        refine (h.others g hgf).poised (by rw [hengine]) (fun harmed => ?_) (hs.poised g)
        rwa [hengine] at harmed
      · exact h.poised halone
    · exact poised_of_idle hg

theorem Turn.quiet (hs : s.HoldsOutput) (hothers : ∀ g, g ≠ f → s.SameFeature t g)
    (hengine : t.engine = s.engine) (hpath : t.press.path = s.press.path)
    (hactive : t.Active f ↔ s.Active f) (hpoised : s.Poised f → t.Poised f) : Turn f s t where
  others := hothers
  yields g hg hgf := ⟨hengine, hpath, fun hf => hgf (hs.exclusive g f hg (hactive.mp hf))⟩
  voices halone harmed := by
    rw [hengine] at harmed
    obtain ⟨hf, hsome, hslot⟩ := hs.voices halone harmed
    exact ⟨hactive.mpr hf, hsome, by rw [hengine]; exact hslot⟩
  poised _ := hpoised (hs.poised f)

/-- A call that is refused, or finds nothing to do. -/
theorem Turn.refused (hs : s.HoldsOutput) (hsame : ∀ g, s.SameFeature t g)
    (hengine : t.engine = s.engine) (hpath : t.press.path = s.press.path) : Turn f s t :=
  .quiet hs (fun g _ => hsame g) hengine hpath (hsame f).active_iff
    ((hsame f).poised (by rw [hengine]) (by rw [hengine]; exact id))

/-- A call of a feature that nobody else is in the way of. -/
theorem Turn.alone (halone : s.Alone f) (hothers : ∀ g, g ≠ f → s.SameFeature t g)
    (hvoices : t.engine.armed = true → t.Voices f) (hpoised : t.Poised f) : Turn f s t where
  others := hothers
  yields g hg hgf := absurd (halone g hg) hgf
  voices _ := hvoices
  poised _ := hpoised

/-- One call after another. -/
theorem Turn.after (hst : Turn f s t) (htu : Turn f t u) : Turn f s u := by
  have hactive : ∀ g, g ≠ f → (t.Active g ↔ s.Active g) :=
    fun g hg => (hst.others g hg).active_iff
  have halone : s.Alone f → t.Alone f := by
    intro halone g hg
    by_contra hgf
    exact hgf (halone g ((hactive g hgf).mp hg))
  refine ⟨fun g hg => ?_, fun g hg hgf => ?_, fun h => htu.voices (halone h),
    fun h => htu.poised (halone h)⟩
  · have h₁ := hst.others g hg
    have h₂ := htu.others g hg
    cases g <;> exact h₂.trans h₁
  · obtain ⟨hengine, hpath, -⟩ := hst.yields g hg hgf
    obtain ⟨hengine', hpath', hidle⟩ := htu.yields g ((hactive g hgf).mpr hg) hgf
    exact ⟨hengine'.trans hengine, hpath'.trans hpath, hidle⟩

/-! ### Who is asked -/

/-- No feature is active. -/
def Free (s : MainOutput Report Ir) : Prop := ∀ g, ¬ s.Active g

theorem Free.alone (h : s.Free) (f : Feature) : s.Alone f := fun g hg => absurd hg (h g)

theorem captureBusy_eq_false_iff : s.captureBusy = false ↔
    ¬ s.Active .locate ∧ ¬ s.Active .cal ∧ ¬ s.Active .sweep ∧ ¬ s.Active .align := by
  simp [captureBusy, Active, PressRun.locateBusy, and_assoc]

/-- `outputBusy()` asks all six. -/
theorem outputBusy_eq_false_iff : s.outputBusy = false ↔ s.Free := by
  rw [outputBusy, Bool.or_eq_false_iff, Bool.or_eq_false_iff, captureBusy_eq_false_iff]
  constructor
  · rintro ⟨⟨⟨hlocate, hcal, hsweep, halign⟩, hverify⟩, hgenerator⟩ g
    cases g with
    | locate => exact hlocate
    | cal => exact hcal
    | sweep => exact hsweep
    | verify => rw [Active, hverify]; exact Bool.false_ne_true
    | align => exact halign
    | generator => rw [Active, hgenerator]; exact Bool.false_ne_true
  · intro h
    exact ⟨⟨⟨h .locate, h .cal, h .sweep, h .align⟩, Bool.eq_false_of_not_eq_true (h .verify)⟩,
      Bool.eq_false_of_not_eq_true (h .generator)⟩

/-- LOCATE, CAL and SWEEP ask no less. -/
theorem pressing_outputBusy (s : MainOutput Report Ir) :
    s.pressing.outputBusy = s.outputBusy := by
  simp only [outputBusy, captureBusy, PressRun.outputBusy, pressing, PressRun.sweepBusy,
    Bool.or_assoc]

/-- `outputHolderName()` names everybody but GEN. -/
theorem free_of_outputHolderName (h : s.outputHolderName = "")
    (hgenerator : ¬ s.Active .generator) : s.Free := by
  rw [← outputBusy_eq_false_iff]
  revert h
  simp only [outputHolderName, outputBusy, captureBusy, Bool.eq_false_of_not_eq_true hgenerator]
  cases s.press.locate.locateWaitingForSettle || s.press.locate.locateCaptureArmed <;>
    cases s.press.cal.calibrationCaptureArmed <;> cases s.press.sweepBusy <;>
    cases s.align.measuring <;> cases s.verify.busy <;> simp

theorem HoldsOutput.not_armed (hs : s.HoldsOutput) (h : s.Free) : ¬ s.engine.armed = true := by
  intro harmed
  obtain ⟨f, hf⟩ := hs.voiced harmed
  exact h f hf.1

end MainOutput

end RtaTool
