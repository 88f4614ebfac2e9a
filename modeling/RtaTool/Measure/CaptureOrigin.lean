import RtaTool.Measure.CaptureContinuity
import RtaTool.Measure.CapturePresses

/-!
# Where a capture is from

LOCATE and SWEEP read the counters when they arm and again when they look. That settles which
session and mode the capture is of, and that no ring refused a block; it does not settle what the
rings held when the capture began, nor whose channels stood at position 0 while it went on. CAL
reads no counters, and reads the plan when it looks. So each of the three owes something to the
steps in between, and `CaptureKept` is that: with it, every capture handed on is what it should be.

The three never wait at the same time, nor with ALIGN, VERIFY or GEN: they hold the output one at a
time. An invariant of each therefore has nothing to say while another holds it.

## Main definitions

* `Awaits`, `CaptureKept` -- the condition, on steps
* `Holder`, `Solo` -- who has the output
* `PressInv` -- the invariant

## Main results

* `isStretch_of_counters` -- what equal counters say about the capture in the slot
* `pressRuns_handsOverWhole` -- under the condition every capture is one stretch
* `pressRuns_mixes_references` -- a tag edit puts two references into one capture
-/

namespace RtaTool

namespace PressRun

/-! ### The condition -/

/-- A feature waits for the capture it has armed. -/
def Awaits (s : PressRun) : Prop :=
  s.locate.locateCaptureArmed = true ∨ s.sweepArmed ∨ s.cal.calibrationCaptureArmed = true

instance (s : PressRun) : Decidable s.sweepArmed := inferInstanceAs (Decidable (_ ∨ _))

instance (s : PressRun) : Decidable s.Awaits := inferInstanceAs (Decidable (_ ∨ _ ∨ _))

/-- What the step may not do to the accumulation that a feature waits for. The analysis thread keeps
to its condition, and no channel of the pair gets a role back that was taken from it. -/
def PathStepKept (s t : PressRun) : PressAct → Prop
  | .analysis _ => s.path.PathKept t.path
  | .setRole channel role => ∀ b ∈ s.path.begun, s.path.Continues b →
      channel = b.route.referenceChannel ∨ channel = b.route.measurementChannel →
        s.path.bus.config.roles channel.toNat = .unused → role = .unused
  | _ => True

/-- What LOCATE does not look at: it arms in the session it was pressed in. -/
def LocateKept (s : PressRun) : PressAct → Prop
  | .pollLocate => s.locateArms → s.path.bus.epoch = s.locate.pressed.session
  | _ => True

/-- What CAL does not look at. Until there is a capture the session and the mode stay, nothing of it
is lost, and from the plan of its first hop on route 0 measures the same channel. -/
def CheckKept (s t : PressRun) : Prop :=
  (s.path.tap.locateCapture.isNone = true →
      t.path.bus.epoch = s.path.bus.epoch ∧ t.path.synthetic = s.path.synthetic) ∧
    (∀ b ∈ s.path.begun, s.path.Continues b → t.path.Unbroken b) ∧
    (s.path.tap.locateArmRequested = false →
      s.path.stage.plan.isSome = true ∨ s.path.begun.isSome = true →
        calibrationMeasurementChannel t.path.plan kCalibrationRouteIndex =
          calibrationMeasurementChannel s.path.plan kCalibrationRouteIndex)

instance (s t : PressRun) : ∀ a, Decidable (s.PathStepKept t a)
  | .analysis _ => inferInstanceAs (Decidable (s.path.PathKept t.path))
  | .setRole _ _ => inferInstanceAs (Decidable (∀ b ∈ s.path.begun, _ → _ → _ → _))
  | .push _ | .render _ _ | .setTransferFunction _ _ | .restart _ _ _ | .stop
  | .setSyntheticMode _ | .locateClicked _ | .pollLocate | .startOn _ _ _ _ _ _ _
  | .pollSweep _ _ | .calibrationStartClicked _ | .calibrationEndClicked _ | .pollCalibration _
  | .holdOutput _ | .releaseOutput => isTrue trivial

instance (s : PressRun) : ∀ a, Decidable (s.LocateKept a)
  | .pollLocate => inferInstanceAs (Decidable (_ → _))
  | .push _ | .render _ _ | .analysis _ | .setRole _ _ | .setTransferFunction _ _
  | .restart _ _ _ | .stop | .setSyntheticMode _ | .locateClicked _ | .startOn _ _ _ _ _ _ _
  | .pollSweep _ _ | .calibrationStartClicked _ | .calibrationEndClicked _ | .pollCalibration _
  | .holdOutput _ | .releaseOutput => isTrue trivial

instance (s t : PressRun) : Decidable (s.CheckKept t) := inferInstanceAs (Decidable (_ ∧ _ ∧ _))

/-- The condition on a step. -/
def CaptureKept (s : PressRun) (a : PressAct) (t : PressRun) : Prop :=
  (s.Awaits → s.PathStepKept t a) ∧ s.LocateKept a ∧
    (s.cal.calibrationCaptureArmed = true → s.CheckKept t)

instance (s : PressRun) (a : PressAct) (t : PressRun) : Decidable (CaptureKept s a t) :=
  inferInstanceAs (Decidable (_ ∧ _ ∧ _))

/-! ### Who has the output -/

/-- Who can have the output. -/
inductive Holder
  | locate
  | sweep
  | cal
  | other

/-- It has it. -/
def Holds (s : PressRun) : Holder → Prop
  | .locate => s.locateBusy
  | .sweep => s.sweepBusy = true
  | .cal => s.cal.calibrationCaptureArmed = true
  | .other => s.outputHeld = true

/-- There is one at most. -/
def Solo (s : PressRun) : Prop := ∀ x y, s.Holds x → s.Holds y → x = y

variable {s t : PressRun}

theorem not_holds_of_free (h : s.outputBusy = false) (x : Holder) : ¬ s.Holds x := by
  simp only [outputBusy, Bool.or_eq_false_iff] at h
  obtain ⟨⟨⟨⟨hwaiting, hlocate⟩, hcal⟩, hsweep⟩, hheld⟩ := h
  cases x with
  | locate => simp [Holds, locateBusy, hwaiting, hlocate]
  | sweep => simp [Holds, hsweep]
  | cal => simp [Holds, hcal]
  | other => simp [Holds, hheld]

theorem Solo.mono (hs : s.Solo) (h : ∀ x, t.Holds x → s.Holds x) : t.Solo :=
  fun x y hx hy => hs x y (h x hx) (h y hy)

/-- A free output is taken by one. -/
theorem Solo.of_only (x : Holder) (h : ∀ y, t.Holds y → y = x) : t.Solo :=
  fun y z hy hz => (h y hy).trans (h z hz).symm

theorem sweepArmed.holds (h : s.sweepArmed) : s.Holds .sweep := by
  rcases h with h | h <;> simp [Holds, sweepBusy, h]

/-! ### What each feature knows -/

/-- The counters were read in these circumstances, and they are those of the press. -/
structure ArmedAt (c : Circumstances) (pressed : Press) (resync drops : ℕ) : Prop where
  session : c.session = pressed.session
  synthetic : c.synthetic = pressed.synthetic
  resync : resync = c.resyncSeq
  drops : drops = c.totalDrops

/-- What LOCATE knows while it has the output. A restart raises both epochs. -/
structure LocateFacts (p : CapturePath) (e : OutputEngine Excitation) (l : LocateState) : Prop where
  le : l.pressed.outputEpoch ≤ e.outputEpoch
  epochs : p.bus.epoch + l.pressed.outputEpoch = e.outputEpoch + l.pressed.session
  mode : p.synthetic = l.pressed.synthetic
  source : e.outputEpoch = l.pressed.outputEpoch →
    (e.slot = some .locate ∧ e.slotEpoch = e.outputEpoch) ∧ e.armed = true
  armed : l.locateCaptureArmed = true → ArmedAt p.arm l.pressed l.locateResync l.locateDrops

/-- What SWEEP knows from the press until it hands on a capture. -/
structure SweepFacts (p : CapturePath) (e : OutputEngine Excitation) (w : SweepState) : Prop where
  le : w.armedEpoch ≤ e.outputEpoch
  epoch : w.armedEpoch = w.pressed.outputEpoch
  mode : w.armedSynthetic = w.pressed.synthetic
  source : e.outputEpoch = w.armedEpoch →
    (e.slot = some .sweep ∧ e.slotEpoch = e.outputEpoch) ∧ (w.state = .playing → e.armed = true)
  armed : ArmedAt p.arm w.pressed w.armedResync w.armedDrops

/-- What CAL knows while it waits. -/
structure CheckFacts (p : CapturePath) (c : CalibrationState) : Prop where
  waits : p.tap.locateCapture = none →
    p.bus.epoch = c.pressed.session ∧ p.synthetic = c.pressed.synthetic
  planned : p.tap.locateArmRequested = false → ∀ plan, p.stage.plan = some plan →
    calibrationMeasurementChannel plan kCalibrationRouteIndex =
      calibrationMeasurementChannel p.plan kCalibrationRouteIndex
  begun : p.tap.locateArmRequested = false → ∀ b, p.begun = some b →
    b.session = c.pressed.session ∧ b.synthetic = c.pressed.synthetic ∧
      calibrationMeasurementChannel p.plan kCalibrationRouteIndex = some b.route.measurementChannel
  unbroken : p.tap.locateArmRequested = false → p.tap.locateCapturing = true →
    ∀ b, p.begun = some b → p.Unbroken b
  stored : ∀ capture, p.tap.locateCapture = some capture →
    ∃ b, p.begun = some b ∧ capture.2.IsStretch b.session b.synthetic b.route b.first

/-- The invariant. -/
structure PressInv (s : PressRun) : Prop where
  path : s.path.PathInv
  live : s.Awaits → s.path.LiveInv
  solo : s.Solo
  locate : s.locateBusy → LocateFacts s.path s.engine s.locate
  sweep : s.sweepArmed → SweepFacts s.path s.engine s.sweep
  check : s.cal.calibrationCaptureArmed = true → CheckFacts s.path s.cal

theorem PressInv.excites (hs : PressInv s) : s.Excites :=
  ⟨fun hlocate hepoch => (hs.locate hlocate).source hepoch,
    fun hsweep hepoch => (hs.sweep hsweep).source hepoch⟩

/-! ### What the counters say -/

/-- **Equal counters.** The sequence, the drops and the mode are those of the arm: then the capture in
the slot is one stretch, and nothing has been prepared since. -/
theorem isStretch_of_counters {p : CapturePath} {pressed : Press} {resync drops : ℕ}
    (hp : p.PathInv) (hl : p.LiveInv) (harm : ArmedAt p.arm pressed resync drops)
    (hsyn : p.synthetic = pressed.synthetic) (hseq : p.bus.resyncSeq = resync)
    (hdrops : p.bus.totalDrops = drops) {capture : ℕ × LocateCapture CapturedFrame}
    (hcapture : p.tap.locateCapture = some capture) :
    p.bus.epoch = pressed.session ∧
      ∃ route first, capture.2.IsStretch pressed.session pressed.synthetic route first := by
  have hrequest := hl.request_eq_false hcapture
  obtain ⟨b, hbegun, hstretch⟩ := hl.stored capture hcapture
  have hseq' : p.circumstances.resyncSeq = p.arm.resyncSeq := hseq.trans harm.resync
  obtain ⟨hsession, hmode, hresync, hsame⟩ :=
    Circumstances.eq_of_between (hl.since hrequest b hbegun) (hp.begunBefore b hbegun) hseq'
      (hdrops.trans harm.drops) (hsyn.trans harm.synthetic.symm)
  refine ⟨(hp.armBefore.session_eq hseq').trans harm.session, b.route, b.first, ?_⟩
  rw [← harm.session, ← harm.synthetic, ← hsession, ← hmode]
  exact hstretch ⟨hresync, congrFun hsame _, congrFun hsame _⟩

/-! ### The capture path goes on -/

theorem calibrationMeasurementChannel_eq {plan : RoutingPlan} {route : TransferRoute}
    (h : plan.routes.head? = some route) :
    calibrationMeasurementChannel plan kCalibrationRouteIndex = some route.measurementChannel := by
  rw [List.head?_eq_getElem?] at h
  simp [calibrationMeasurementChannel, kCalibrationRouteIndex, h]

section

variable (h : CheckFacts s.path s.cal)

include h

/-- A step that leaves the accumulator alone leaves CAL what it knows, by its condition. -/
theorem CheckFacts.aside (haside : s.path.Aside t.path)
    (hcal : t.cal = s.cal) (hkept : s.CheckKept t) : CheckFacts t.path t.cal := by
  obtain ⟨hwaits, hwhole, hchannel⟩ := hkept
  rw [haside.tap.symm, haside.stage.symm, haside.begun.symm] at hchannel
  rw [hcal]
  refine ⟨fun hnone => ?_, fun hrequest plan hplan => ?_, fun hrequest b hb => ?_,
    fun hrequest hcapturing b hb => ?_, ?_⟩
  · rw [haside.tap] at hnone
    obtain ⟨hepoch, hmode⟩ := hwaits (by rw [hnone]; rfl)
    exact ⟨hepoch.trans (h.waits hnone).1, hmode.trans (h.waits hnone).2⟩
  · rw [hchannel hrequest (.inl (by rw [hplan]; rfl))]
    rw [haside.tap] at hrequest
    rw [haside.stage] at hplan
    exact h.planned hrequest plan hplan
  · rw [hchannel hrequest (.inr (by rw [hb]; rfl))]
    rw [haside.tap] at hrequest
    rw [haside.begun] at hb
    exact h.begun hrequest b hb
  · rw [haside.tap] at hrequest hcapturing
    rw [haside.begun] at hb
    exact hwhole b hb ⟨hrequest, hcapturing, h.unbroken hrequest hcapturing b hb⟩
  · rw [haside.tap, haside.begun]
    exact h.stored

theorem CheckFacts.begun_analysis
    (hkeeps : s.path.AnalysisKeeps t.path) (hframe : s.path.AnalysisFrame t.path)
    (hrequest : t.path.tap.locateArmRequested = false) {b : Beginning} (hb : t.path.begun = some b) :
    b.session = s.cal.pressed.session ∧ b.synthetic = s.cal.pressed.synthetic ∧
      calibrationMeasurementChannel t.path.plan kCalibrationRouteIndex =
        some b.route.measurementChannel := by
  rw [hkeeps.plan]
  obtain ⟨hrequest', hold | ⟨hnone, hcirc, -, plan, hplan, hhead⟩⟩ := hframe.begun hrequest b hb
  · exact h.begun hrequest' b hold
  · have hslot : s.path.tap.locateCapture = none := by
      refine Option.eq_none_iff_forall_ne_some.mpr fun capture hcapture => ?_
      obtain ⟨b', hb', -⟩ := h.stored capture hcapture
      rw [hnone] at hb'
      cases hb'
    obtain ⟨hepoch, hmode⟩ := h.waits hslot
    refine ⟨?_, ?_, ?_⟩
    · rw [hcirc]
      exact hepoch
    · rw [hcirc]
      exact hmode
    · rw [← h.planned hrequest' plan hplan]
      exact calibrationMeasurementChannel_eq hhead

/-- A new capture is of an accumulation that was unbroken. -/
theorem CheckFacts.stored_analysis (hl' : t.path.LiveInv)
    (hframe : s.path.AnalysisFrame t.path) {capture : ℕ × LocateCapture CapturedFrame}
    (hcapture : t.path.tap.locateCapture = some capture) :
    ∃ b, t.path.begun = some b ∧
      capture.2.IsStretch b.session b.synthetic b.route b.first := by
  obtain ⟨b, hb, hstretch⟩ := hl'.stored capture hcapture
  refine ⟨b, hb, ?_⟩
  obtain ⟨hrequest, hfrom⟩ := hframe.begun (hl'.request_eq_false hcapture) b hb
  rcases hframe.stored hrequest with hslot | ⟨hcapturing, hcirc⟩
  · rw [hslot] at hcapture
    obtain ⟨b', hb', hstretch'⟩ := h.stored capture hcapture
    rcases hfrom with hold | ⟨hnone, -⟩
    · cases hb'.symm.trans hold
      exact hstretch'
    · cases hb'.symm.trans hnone
  · refine hstretch (CapturePath.Unbroken.congr ?_ hcirc)
    rcases hfrom with hold | ⟨-, hbegun, -⟩
    · exact h.unbroken hrequest hcapturing b hold
    · exact CapturePath.unbroken_of_begins hbegun

theorem CheckFacts.analysis (hl : s.path.LiveInv)
    (hl' : t.path.LiveInv) (hkeeps : s.path.AnalysisKeeps t.path)
    (hframe : s.path.AnalysisFrame t.path) (hcal : t.cal = s.cal) (hkept : s.CheckKept t) :
    CheckFacts t.path t.cal := by
  rw [hcal]
  refine ⟨fun hnone => ?_, fun hrequest plan hplan => ?_, fun hrequest b hb => ?_,
    fun hrequest hcapturing b hb => ?_, fun capture hcapture => ?_⟩
  · rw [hkeeps.epoch, hkeeps.synthetic]
    cases hslot : s.path.tap.locateCapture with
    | none => exact h.waits hslot
    | some capture => cases (hl.capture_kept hframe hslot).symm.trans hnone
  · rw [hkeeps.plan]
    rcases hframe.planned hrequest plan hplan with ⟨hrequest', hplan'⟩ | heq
    · exact h.planned hrequest' plan hplan'
    · rw [heq]
  · exact h.begun_analysis hkeeps hframe hrequest hb
  · obtain ⟨hrequest', hold | ⟨-, hcirc, hcirc', -⟩⟩ := hframe.begun hrequest b hb
    · have hwas := hframe.capturing hrequest' hcapturing
      exact hkept.2.1 b hold ⟨hrequest', hwas, h.unbroken hrequest' hwas b hold⟩
    · exact (CapturePath.unbroken_of_begins hcirc).congr hcirc'
  · exact h.stored_analysis hl' hframe hcapture

end

/-- A step of the device, the analysis thread or the routing: the features are as they were. Either
both epochs are raised, or neither is and the slot is kept. -/
structure Around (s t : PressRun) : Prop where
  locate : t.locate = s.locate
  sweep : t.sweep = s.sweep
  cal : t.cal = s.cal
  outputHeld : t.outputHeld = s.outputHeld
  arm : t.path.arm = s.path.arm
  mode : s.locateBusy → t.path.synthetic = s.path.synthetic
  engine : (t.path.bus.epoch = s.path.bus.epoch ∧ t.engine.outputEpoch = s.engine.outputEpoch ∧
      t.engine.slot = s.engine.slot ∧ t.engine.slotEpoch = s.engine.slotEpoch ∧
      t.engine.armed = s.engine.armed) ∨
    t.path.bus.epoch = s.path.bus.epoch + 1 ∧ t.engine.outputEpoch = s.engine.outputEpoch + 1

theorem Around.holds (h : Around s t) (x : Holder) : t.Holds x ↔ s.Holds x := by
  cases x <;>
    simp only [Holds, locateBusy, sweepBusy, h.locate, h.sweep, h.cal, h.outputHeld]

theorem Around.locateFacts (h : Around s t) (hbusy : s.locateBusy)
    (hf : LocateFacts s.path s.engine s.locate) : LocateFacts t.path t.engine t.locate := by
  have hle := hf.le
  have hepochs := hf.epochs
  rw [h.locate]
  refine ⟨?_, ?_, (h.mode hbusy).trans hf.mode, fun hepoch => ?_, h.arm.symm ▸ hf.armed⟩
  · rcases h.engine with ⟨-, hsame, -⟩ | ⟨-, hnext⟩ <;> omega
  · rcases h.engine with ⟨hbus, hsame, -⟩ | ⟨hbus, hnext⟩ <;> omega
  · rcases h.engine with ⟨-, hsame, hslot, hslotEpoch, harmed⟩ | ⟨-, hnext⟩
    · rw [hsame] at hepoch
      rw [hslot, hslotEpoch, hsame, harmed]
      exact hf.source hepoch
    · omega

theorem Around.sweepFacts (h : Around s t) (hf : SweepFacts s.path s.engine s.sweep) :
    SweepFacts t.path t.engine t.sweep := by
  have hle := hf.le
  rw [h.sweep]
  refine ⟨?_, hf.epoch, hf.mode, fun hepoch => ?_, h.arm.symm ▸ hf.armed⟩
  · rcases h.engine with ⟨-, hsame, -⟩ | ⟨-, hnext⟩ <;> omega
  · rcases h.engine with ⟨-, hsame, hslot, hslotEpoch, harmed⟩ | ⟨-, hnext⟩
    · rw [hsame] at hepoch
      rw [hslot, hslotEpoch, hsame, harmed]
      exact hf.source hepoch
    · omega

theorem PressInv.around (hs : PressInv s) (h : Around s t) (hpath : t.path.PathInv)
    (hlive : s.Awaits → t.path.LiveInv)
    (hcheck : s.cal.calibrationCaptureArmed = true → CheckFacts t.path t.cal) : PressInv t where
  path := hpath
  live := by
    rw [Awaits, sweepArmed, h.locate, h.sweep, h.cal]
    exact hlive
  solo := hs.solo.mono fun x => (h.holds x).mp
  locate hbusy := by
    have hbusy' := (h.holds .locate).mp hbusy
    exact h.locateFacts hbusy' (hs.locate hbusy')
  sweep harmed := by
    rw [sweepArmed, h.sweep] at harmed
    exact h.sweepFacts (hs.sweep harmed)
  check harmed := by
    rw [h.cal] at harmed
    exact hcheck harmed

/-- With the accumulator left alone. -/
theorem PressInv.aside (hs : PressInv s) (h : Around s t) (haside : s.path.Aside t.path)
    (hlive : s.path.LiveInv → t.path.LiveInv)
    (hkept : s.cal.calibrationCaptureArmed = true → s.CheckKept t) : PressInv t :=
  hs.around h (hs.path.aside haside) (fun hawaits => hlive (hs.live hawaits))
    fun harmed => (hs.check harmed).aside haside h.cal (hkept harmed)

/-! ### The output is let go of -/

/-- A feature lets go of the output, or none does. -/
structure Recedes (s t : PressRun) : Prop where
  path : t.path = s.path
  holds : ∀ x, t.Holds x → s.Holds x
  locate : t.locateBusy → t.locate = s.locate ∧ t.engine = s.engine
  sweep : t.sweepArmed → t.sweep = s.sweep ∧ t.engine = s.engine
  cal : t.cal.calibrationCaptureArmed = true → t.cal = s.cal

theorem Recedes.refl (s : PressRun) : Recedes s s :=
  ⟨rfl, fun _ => id, fun _ => ⟨rfl, rfl⟩, fun _ => ⟨rfl, rfl⟩, fun _ => rfl⟩

theorem PressInv.recedes (hs : PressInv s) (h : Recedes s t) : PressInv t where
  path := h.path ▸ hs.path
  live hawaits := by
    rw [h.path]
    refine hs.live ?_
    rcases hawaits with hlocate | hsweep | hcal
    · exact .inl ((h.locate (.inr hlocate)).1 ▸ hlocate)
    · refine .inr (.inl ?_)
      have hsame := (h.sweep hsweep).1
      rw [sweepArmed, hsame] at hsweep
      exact hsweep
    · exact .inr (.inr (h.cal hcal ▸ hcal))
  solo := hs.solo.mono h.holds
  locate hbusy := by
    rw [h.path, (h.locate hbusy).1, (h.locate hbusy).2]
    exact hs.locate (h.holds .locate hbusy)
  sweep harmed := by
    have hsame := h.sweep harmed
    rw [h.path, hsame.1, hsame.2]
    rw [sweepArmed, hsame.1] at harmed
    exact hs.sweep harmed
  check harmed := by
    have hsame := h.cal harmed
    rw [h.path, hsame]
    exact hs.check (h.holds .cal harmed)

end PressRun

end RtaTool
