import RtaTool.Measure.CaptureOrigin

/-!
# LOCATE, SWEEP and CAL, run after run

Every step of the app is one of three kinds. The device, the analysis thread and the routing go on
around the features; a feature that has the output goes on or lets go of it; one that finds it free
takes it. The invariant is kept by each kind, and what is handed on is read off it.

## Main results

* `pressRuns_handsOverWhole` -- under the condition every capture is one stretch of one pair
* `pressRuns_mixes_references` -- without it a tag edit puts two references into one capture
-/

namespace RtaTool

/-! ### The engine -/

namespace OutputEngine

/-- No source of the features changes as it plays. -/
theorem render_slot (e : OutputEngine Excitation) (hasOutput : Bool)
    (numOutputChannels numSamples : ℤ) :
    (e.render hasOutput numOutputChannels numSamples).slot = e.slot := by
  have hloop := renderLoop_induction (P := fun e' => e'.slot = e.slot)
    (clampChannels numOutputChannels)
    (fun e' chunk h => by
      show e'.slot.map (process · chunk) = e.slot
      rw [h]
      cases e.slot <;> rfl)
    numSamples.toNat numSamples.toNat e.requestMaster rfl
  rw [render]
  split
  · rfl
  · split
    · rfl
    · exact hloop

theorem routeOutputSet_frame {Src : Type} (e : OutputEngine Src) (outputs : List ℤ) :
    (e.routeOutputSet outputs).slot = e.slot ∧ (e.routeOutputSet outputs).slotEpoch = e.slotEpoch ∧
      (e.routeOutputSet outputs).outputEpoch = e.outputEpoch ∧
      (e.routeOutputSet outputs).armed = e.armed :=
  ⟨routeEach_slot _ e, routeEach_slotEpoch _ e, routeEach_outputEpoch _ e, routeEach_armed _ e⟩

end OutputEngine

namespace PressRun

variable {s : PressRun}

/-! ### What goes on around the features -/

section

variable (hs : PressInv s)

include hs

theorem PressInv.push (n : ℕ)
    (hkept : s.cal.calibrationCaptureArmed = true → s.CheckKept { s with path := s.path.push n }) :
    PressInv { s with path := s.path.push n } := by
  have hepoch := (s.path.push_effect n).1.epoch
  exact hs.aside ⟨rfl, rfl, rfl, rfl, rfl, fun _ => rfl, .inl ⟨hepoch, rfl, rfl, rfl, rfl⟩⟩
    (CapturePath.push_aside n) (fun hl => hl.push hs.path n) hkept

theorem PressInv.render (numOutputChannels numSamples : ℤ) :
    PressInv { s with engine := s.engine.render true numOutputChannels numSamples } := by
  have hsame := s.engine.render_sameControl true numOutputChannels numSamples
  have hslot := s.engine.render_slot true numOutputChannels numSamples
  exact hs.around ⟨rfl, rfl, rfl, rfl, rfl, fun _ => rfl,
    .inl ⟨rfl, hsame.outputEpoch, hslot, hsame.slotEpoch, hsame.armed⟩⟩ hs.path hs.live hs.check

theorem PressInv.analysis (hop now : ℕ)
    (hkept : CaptureKept s (.analysis now) { s with path := s.path.analysis hop now }) :
    PressInv { s with path := s.path.analysis hop now } := by
  obtain ⟨hpath, -, hcheck⟩ := hkept
  have hkeeps := s.path.analysis_keeps hop now
  have hlive : s.Awaits → (s.path.analysis hop now).LiveInv :=
    fun hawaits => (hs.live hawaits).analysis hs.path (hpath hawaits)
  refine hs.around ⟨rfl, rfl, rfl, rfl, hkeeps.arm, fun _ => hkeeps.synthetic,
    .inl ⟨hkeeps.epoch, rfl, rfl, rfl, rfl⟩⟩ (hs.path.analysis hop now) hlive fun harmed => ?_
  have hl := hs.live (.inr (.inr harmed))
  exact (hs.check harmed).analysis (t := { s with path := s.path.analysis hop now }) hl
    (hlive (.inr (.inr harmed))) hkeeps (CapturePath.analysis_frame hop now hl.index) rfl
    (hcheck harmed)

/-- An edit or the end of the blocks, where no frame moves. -/
theorem PressInv.quiet {q : CapturePath} (hquiet : s.Awaits → s.path.Quiet q)
    (haside : s.path.Aside q) (hepoch : q.bus.epoch = s.path.bus.epoch)
    (hmode : s.locateBusy → q.synthetic = s.path.synthetic)
    (hkept : s.cal.calibrationCaptureArmed = true → s.CheckKept { s with path := q }) :
    PressInv { s with path := q } := by
  refine hs.around ⟨rfl, rfl, rfl, rfl, haside.arm, hmode, .inl ⟨hepoch, rfl, rfl, rfl, rfl⟩⟩
    (hs.path.aside haside) (fun hawaits => (hs.live hawaits).quiet hs.path (hquiet hawaits))
    fun harmed => ?_
  exact (hs.check harmed).aside (t := { s with path := q }) haside rfl (hkept harmed)

/-- Another configuration. -/
def edited (p : CapturePath) (config : ChannelConfig) : CapturePath :=
  { p with bus := { p.bus with config := config } }

omit hs in
theorem edited_aside (p : CapturePath) (config : ChannelConfig) : p.Aside (edited p config) :=
  ⟨rfl, rfl, rfl, rfl, rfl, .refl _⟩

omit hs in
theorem edited_quiet {p : CapturePath} {config : ChannelConfig}
    (hwritten : ∀ b, p.Accumulating b → ∀ ch,
      ch = b.route.referenceChannel ∨ ch = b.route.measurementChannel →
        (edited p config).Written ch → p.Written ch) : p.Quiet (edited p config) :=
  ⟨rfl, rfl, rfl, rfl, rfl, rfl, rfl, rfl, rfl, rfl, rfl, rfl, id, fun h => ⟨h, rfl⟩, hwritten⟩

omit hs in
theorem written_of_setRole {p : CapturePath} {channel : ℤ} {role : ChannelRole} {ch : ℕ}
    (h : (edited p (p.bus.config.setRole channel role)).Written ch)
    (hrole : channel = ch → p.bus.config.roles channel.toNat = .unused → role = .unused) :
    p.Written ch := by
  obtain ⟨hactive, hlt, hused⟩ := h
  refine ⟨hactive, hlt, fun hunused => hused ?_⟩
  show (p.bus.config.setRole channel role).snapshot p.bus.preparedChannels ch = .unused
  rw [ChannelConfig.snapshot] at hunused ⊢
  split
  · rename_i hin
    rw [if_pos hin] at hunused
    rw [ChannelConfig.setRole]
    split
    · rename_i htable
      have hnonneg := htable.1
      by_cases hch : ch = channel.toNat
      · subst hch
        refine (Function.update_self ..).trans (hrole ?_ hunused)
        omega
      · exact (Function.update_of_ne hch ..).trans hunused
    · exact hunused
  · rfl

theorem PressInv.setRole {channel : ℤ} {role : ChannelRole}
    (hkept : CaptureKept s (.setRole channel role)
      { s with path := { s.path with bus := s.path.bus.setRole channel role } }) :
    PressInv { s with path := { s.path with bus := s.path.bus.setRole channel role } } := by
  obtain ⟨hpath, -, hcheck⟩ := hkept
  refine hs.quiet (fun hawaits => ?_) (edited_aside s.path _) rfl (fun _ => rfl) hcheck
  refine edited_quiet fun b hacc ch hch hwritten => ?_
  refine written_of_setRole hwritten fun hchannel => ?_
  refine hpath hawaits b hacc.1 hacc.2 ?_
  rcases hch with rfl | rfl
  · exact .inl hchannel
  · exact .inr hchannel

theorem PressInv.setTransferFunction {channel tf : ℤ}
    (hkept : s.cal.calibrationCaptureArmed = true → s.CheckKept
      { s with path := { s.path with bus := s.path.bus.setTransferFunction channel tf } }) :
    PressInv { s with path := { s.path with bus := s.path.bus.setTransferFunction channel tf } } := by
  refine hs.quiet (fun _ => ?_) (edited_aside s.path _) rfl (fun _ => rfl) hkept
  refine edited_quiet fun b _ ch _ hwritten => ?_
  obtain ⟨hactive, hlt, hused⟩ := hwritten
  refine ⟨hactive, hlt, ?_⟩
  change (s.path.bus.config.setTransferFunction channel tf).snapshot _ ch ≠ .unused at hused
  rw [ChannelConfig.setTransferFunction] at hused
  split at hused <;> exact hused

/-- Without blocks, in this mode or in live input. -/
def stopped (p : CapturePath) (config : ChannelConfig) (synthetic : Bool) : CapturePath :=
  { p with bus := { p.bus with active := false, config := config }, synthetic := synthetic }

omit hs in
theorem stopped_quiet (p : CapturePath) (config : ChannelConfig) (synthetic : Bool)
    (h : synthetic = true → p.synthetic = true) : p.Quiet (stopped p config synthetic) :=
  ⟨rfl, rfl, rfl, rfl, rfl, rfl, rfl, rfl, rfl, rfl, rfl, rfl, h, nofun,
    fun _ _ _ _ hwritten => nomatch hwritten.1⟩

theorem PressInv.stop (hkept : s.cal.calibrationCaptureArmed = true →
      s.CheckKept { s with path := { s.path with bus := s.path.bus.setActive false } }) :
    PressInv { s with path := { s.path with bus := s.path.bus.setActive false } } := by
  have hquiet := stopped_quiet s.path s.path.bus.config s.path.synthetic id
  exact hs.quiet (fun _ => hquiet) hquiet.aside rfl (fun _ => rfl) hkept

theorem PressInv.leaveSynthetic (hfree : ¬ s.locateBusy)
    (hkept : s.cal.calibrationCaptureArmed = true → s.CheckKept s.leaveSynthetic) :
    PressInv s.leaveSynthetic := by
  have hquiet := stopped_quiet s.path
    ((s.path.bus.config.setRole 0 .unused).setRole 1 .unused) false nofun
  exact hs.quiet (fun _ => hquiet) hquiet.aside rfl (fun h => absurd h hfree) hkept

/-! ### A device is prepared -/

omit hs in
/-- With the analysis thread attached, a preparation begins a resync. -/
theorem prepare_resynced {b : CaptureBus CapturedFrame} (h : b.consumerAttached = true)
    (sampleRate : ℚ) (channels : ℤ) :
    (b.prepare sampleRate channels).resyncSeq = b.resyncSeq + 1 ∧
      (b.prepare sampleRate channels).consumerAttached = b.consumerAttached ∧
      (b.prepare sampleRate channels).epoch = b.epoch + 1 := by
  simp [CaptureBus.prepare, CaptureBus.relabel, CaptureBus.raiseGate, CaptureBus.markGate, h]

theorem PressInv.prepared {t : PressRun} (hlocate : t.locate = s.locate)
    (hsweep : t.sweep = s.sweep) (hcal : t.cal = s.cal) (hheld : t.outputHeld = s.outputHeld)
    (hmode : s.locateBusy → t.path.synthetic = s.path.synthetic)
    (hres : s.path.Resynced t.path) (hepoch : t.path.bus.epoch = s.path.bus.epoch + 1)
    (houtput : t.engine.outputEpoch = s.engine.outputEpoch + 1)
    (hkept : s.cal.calibrationCaptureArmed = true → s.CheckKept t) : PressInv t :=
  hs.aside ⟨hlocate, hsweep, hcal, hheld, hres.arm, hmode, .inr ⟨hepoch, houtput⟩⟩ hres.aside
    (fun hl => hl.resynced hs.path hres) hkept

theorem PressInv.restart (sampleRate : ℚ) (inputs outputs : ℤ)
    (hkept : s.cal.calibrationCaptureArmed = true →
      s.CheckKept (s.restart sampleRate inputs outputs)) :
    PressInv (s.restart sampleRate inputs outputs) := by
  obtain ⟨hseq, hattached, hepoch⟩ := prepare_resynced hs.path.attached sampleRate inputs
  have hlt : s.path.bus.resyncSeq < (s.path.bus.prepare sampleRate inputs).resyncSeq := by omega
  exact hs.prepared rfl rfl rfl rfl (fun _ => rfl) ⟨rfl, rfl, rfl, rfl, hattached, hlt⟩ hepoch rfl
    hkept

theorem PressInv.enterSynthetic (hfree : ¬ s.locateBusy)
    (hkept : s.cal.calibrationCaptureArmed = true → s.CheckKept s.enterSynthetic) :
    PressInv s.enterSynthetic := by
  obtain ⟨hseq, hattached, hepoch⟩ := prepare_resynced (b := s.path.bus.setActive false)
    hs.path.attached kSyntheticSampleRate kSyntheticChannels
  have hlt : s.path.bus.resyncSeq < ((s.path.bus.setActive false).prepare kSyntheticSampleRate
      kSyntheticChannels).resyncSeq := by
    rw [hseq]
    exact Nat.lt_succ_self _
  exact hs.prepared rfl rfl rfl rfl (fun h => absurd h hfree)
    ⟨rfl, rfl, rfl, rfl, hattached, hlt⟩ hepoch rfl hkept

/-! ### LOCATE -/

omit hs in
theorem Solo.not_sweepArmed (hs : s.Solo) (h : s.locateBusy) : ¬ s.sweepArmed :=
  fun hsweep => nomatch hs .locate .sweep h hsweep.holds

omit hs in
/-- LOCATE lets go of the output. -/
theorem Solo.recedes_locate {t : PressRun} (hs : s.Solo) (hbusy : s.locateBusy)
    (hpath : t.path = s.path) (hidle : ¬ t.locateBusy) (hsweep : t.sweep = s.sweep)
    (hcal : t.cal = s.cal) (hheld : t.outputHeld = s.outputHeld) : Recedes s t where
  path := hpath
  holds x hx := by
    cases x with
    | locate => exact hbusy
    | sweep => simpa only [Holds, sweepBusy, hsweep] using hx
    | cal => simpa only [Holds, hcal] using hx
    | other => simpa only [Holds, hheld] using hx
  locate h := absurd h hidle
  sweep h := by
    rw [sweepArmed, hsweep] at h
    exact absurd h (hs.not_sweepArmed hbusy)
  cal _ := hcal

theorem PressInv.locateClicked (outputs : List ℤ) :
    PressInv (s.locateClicked outputs) := by
  rw [PressRun.locateClicked]
  split
  · exact hs
  · rename_i hfree
    rw [Bool.not_eq_true] at hfree
    have hnot := not_holds_of_free hfree
    rw [OutputEngine.setSource_eq]
    split
    · have hidle : ¬ s.locateBusy := hnot .locate
      rw [locateBusy, not_or, Bool.not_eq_true, Bool.not_eq_true] at hidle
      simp only [Bool.not_true, Bool.false_eq_true, if_false]
      generalize (if outputs = [] then [0] else outputs) = outs
      obtain ⟨hslot, hslotEpoch, hepoch, -⟩ := OutputEngine.routeOutputSet_frame
        { s.engine with slot := some Excitation.locate, slotEpoch := s.engine.outputEpoch } outs
      refine ⟨hs.path, fun hawaits => ?_, Solo.of_only .locate fun y hy => ?_, fun _ => ?_,
        fun hsweep => absurd hsweep.holds (hnot .sweep), fun hcal => absurd hcal (hnot .cal)⟩
      · rcases hawaits with hlocate | hsweep | hcal
        · rw [hidle.2] at hlocate
          cases hlocate
        · exact absurd hsweep.holds (hnot .sweep)
        · exact absurd hcal (hnot .cal)
      · cases y with
        | locate => rfl
        | sweep => exact absurd hy (hnot .sweep)
        | cal => exact absurd hy (hnot .cal)
        | other => exact absurd hy (hnot .other)
      · refine ⟨Nat.le_of_eq hepoch.symm, ?_, rfl, fun _ => ⟨⟨hslot, ?_⟩, rfl⟩, fun harmed => ?_⟩
        · show s.path.bus.epoch + s.engine.outputEpoch = _ + s.path.bus.epoch
          rw [Nat.add_comm]
          exact congrArg (· + _) hepoch.symm
        · exact hslotEpoch.trans hepoch.symm
        · rw [hidle.2] at harmed
          cases harmed
    · exact hs

omit hs in
theorem not_locateBusy_cancelLocate (s : PressRun) : ¬ s.cancelLocate.locateBusy := by
  rw [cancelLocate]
  split
  · rename_i hidle
    simp only [Bool.and_eq_true, Bool.not_eq_true'] at hidle
    rw [locateBusy, hidle.1, hidle.2]
    simp
  · simp [locateBusy]

omit hs in
theorem cancelLocate_recedes (hs : s.Solo) : Recedes s s.cancelLocate := by
  have hidle := s.not_locateBusy_cancelLocate
  revert hidle
  rw [cancelLocate]
  split
  · exact fun _ => .refl s
  · rename_i hbusy
    refine fun hidle => hs.recedes_locate ?_ rfl hidle rfl rfl rfl
    rw [locateBusy]
    revert hbusy
    cases s.locate.locateWaitingForSettle <;> simp

omit hs in
/-- The ways of the second half of the poll. -/
theorem pollLocateCapture_cases (s : PressRun) :
    s.pollLocateCapture = (s, none) ∨ s.pollLocateCapture = (s.cancelLocate, none) ∨
      ∃ capture, s.locate.locateCaptureArmed = true ∧
        s.path.bus.resyncSeq = s.locate.locateResync ∧
        s.path.bus.totalDrops = s.locate.locateDrops ∧ s.path.tap.locateCapture = some capture ∧
        s.pollLocateCapture =
          ({ s with
              engine := s.engine.disarmSource
              locate := { s.locate with
                lastHandledCapture := some capture.1
                locateCaptureArmed := false } }, some capture.2) := by
  rw [pollLocateCapture]
  split
  · exact .inl rfl
  · rename_i harmed
    split
    · exact .inr (.inl rfl)
    · rename_i hseq
      split
      · exact .inr (.inl rfl)
      · rename_i hdrops
        split
        · exact .inl rfl
        · rename_i capture hcapture
          split
          · exact .inl rfl
          · refine .inr (.inr ⟨capture, ?_, not_not.mp hseq, not_not.mp hdrops, hcapture, rfl⟩)
            simpa using harmed

theorem PressInv.pollLocateCapture
    (hwaiting : s.locate.locateWaitingForSettle = false) : PressInv s.pollLocateCapture.1 := by
  rcases s.pollLocateCapture_cases with heq | heq | ⟨capture, harmed, -, -, -, heq⟩ <;> rw [heq]
  · exact hs
  · exact hs.recedes (cancelLocate_recedes hs.solo)
  · refine hs.recedes (hs.solo.recedes_locate (.inr harmed) rfl ?_ rfl rfl rfl)
    simp [locateBusy, hwaiting]

theorem PressInv.armLocate (hwaiting : s.locate.locateWaitingForSettle = true)
    (hsession : s.path.bus.epoch = s.locate.pressed.session) : PressInv s.armLocate := by
  have hbusy : s.locateBusy := .inl hwaiting
  have hfacts := hs.locate hbusy
  refine ⟨hs.path.armLocateCapture 0 kCaptureLength, fun _ =>
    CapturePath.PathInv.live_armLocateCapture kCaptureLength, hs.solo.mono fun x hx => ?_,
    fun _ => ?_, fun h => absurd h (hs.solo.not_sweepArmed hbusy),
    fun h => nomatch hs.solo .locate .cal hbusy h⟩
  · cases x with
    | locate => exact hbusy
    | sweep => exact hx
    | cal => exact hx
    | other => exact hx
  · exact ⟨hfacts.le, hfacts.epochs, hfacts.mode, hfacts.source,
      fun _ => ⟨hsession, hfacts.mode, rfl, rfl⟩⟩

theorem PressInv.pollLocatePipeline
    (hkept : s.locateArms → s.path.bus.epoch = s.locate.pressed.session) :
    PressInv s.pollLocatePipeline.1 := by
  rw [PressRun.pollLocatePipeline]
  split
  · rename_i hwaiting
    split
    · exact hs
    · rename_i hsettled
      split
      · exact hs
      · rename_i hpending
        have hsession := hkept ⟨hwaiting, not_not.mp hsettled, Bool.eq_false_of_not_eq_true hpending⟩
        exact (hs.armLocate hwaiting hsession).pollLocateCapture rfl
  · rename_i hwaiting
    exact hs.pollLocateCapture (Bool.eq_false_of_not_eq_true hwaiting)

end

variable {capture : LocateCapture CapturedFrame}

theorem pollLocatePipeline_eq_some (h : s.pollLocatePipeline.2 = some capture) :
    s.locate.locateCaptureArmed = true ∧ s.path.bus.resyncSeq = s.locate.locateResync ∧
      s.path.bus.totalDrops = s.locate.locateDrops ∧
      ∃ number, s.path.tap.locateCapture = some (number, capture) := by
  have hhanded : ∀ u : PressRun, u.pollLocateCapture.2 = some capture →
      u.locate.locateCaptureArmed = true ∧ u.path.bus.resyncSeq = u.locate.locateResync ∧
        u.path.bus.totalDrops = u.locate.locateDrops ∧
        ∃ number, u.path.tap.locateCapture = some (number, capture) := by
    intro u hu
    rcases u.pollLocateCapture_cases with heq | heq | ⟨stored, harmed, hseq, hdrops, hslot, heq⟩ <;>
      rw [heq] at hu <;> cases hu
    exact ⟨harmed, hseq, hdrops, stored.1, hslot⟩
  rw [PressRun.pollLocatePipeline] at h
  split at h
  · split at h
    · cases h
    · split at h
      · cases h
      · obtain ⟨-, -, -, number, hslot⟩ := hhanded _ h
        cases hslot
  · exact hhanded s h

theorem PressInv.owed_locate (hs : PressInv s) {t : PressRun}
    (h : s.pollLocatePipeline.2 = some capture) : s.Owed t capture .pollLocate := by
  obtain ⟨harmed, hseq, hdrops, number, hslot⟩ := pollLocatePipeline_eq_some h
  have hfacts := hs.locate (.inr harmed)
  obtain ⟨hsession, hstretch⟩ := isStretch_of_counters hs.path (hs.live (.inl harmed))
    (hfacts.armed harmed) hfacts.mode hseq hdrops hslot
  have hepochs := hfacts.epochs
  exact ⟨by omega, hstretch⟩

/-! ### SWEEP -/

theorem Solo.not_locateBusy (hs : s.Solo) (h : s.sweepBusy = true) : ¬ s.locateBusy :=
  fun hlocate => nomatch hs .locate .sweep hlocate h

/-- SWEEP lets go of the output, or of what it waits for. -/
theorem Solo.recedes_sweep {t : PressRun} (hs : s.Solo) (hbusy : s.sweepBusy = true)
    (hpath : t.path = s.path) (hidle : ¬ t.sweepArmed) (hlocate : t.locate = s.locate)
    (hcal : t.cal = s.cal) (hheld : t.outputHeld = s.outputHeld) : Recedes s t where
  path := hpath
  holds x hx := by
    cases x with
    | locate => simpa only [Holds, locateBusy, hlocate] using hx
    | sweep => exact hbusy
    | cal => simpa only [Holds, hcal] using hx
    | other => simpa only [Holds, hheld] using hx
  locate h := by
    rw [locateBusy, hlocate] at h
    exact absurd h (hs.not_locateBusy hbusy)
  sweep h := absurd h hidle
  cal _ := hcal

theorem startOn_cases (s : PressRun) (outputChannel : ℤ) (named : Bool) (outputChannels : ℤ)
    (driveOutputs : List ℤ) (durationSec tailSeconds nowMs : ℚ) :
    s.startOn outputChannel named outputChannels driveOutputs durationSec tailSeconds nowMs = s ∨
      s.outputBusy = false ∧ ∃ outputs captureSamples,
        s.startOn outputChannel named outputChannels driveOutputs durationSec tailSeconds nowMs =
          s.armSweep { s.engine with slot := some .sweep, slotEpoch := s.engine.outputEpoch } outputs
            captureSamples nowMs := by
  rw [startOn, OutputEngine.setSource_eq]
  split
  · exact .inl rfl
  · split
    · exact .inl rfl
    · rename_i hfree
      refine or_iff_not_imp_left.mpr fun hstarts => ⟨Bool.eq_false_of_not_eq_true hfree, ?_⟩
      revert hstarts
      split
      · exact fun h => absurd rfl h
      · split
        · exact fun h => absurd rfl h
        · split
          · exact fun h => absurd rfl h
          · split
            · exact fun h => absurd rfl h
            · split
              · exact fun _ => ⟨_, _, rfl⟩
              · exact fun h => absurd rfl h

section

variable (hs : PressInv s)

include hs

theorem PressInv.startOn (outputChannel : ℤ) (named : Bool) (outputChannels : ℤ)
    (driveOutputs : List ℤ) (durationSec tailSeconds nowMs : ℚ) :
    PressInv (s.startOn outputChannel named outputChannels driveOutputs durationSec tailSeconds
      nowMs) := by
  rcases s.startOn_cases outputChannel named outputChannels driveOutputs durationSec tailSeconds
    nowMs with heq | ⟨hfree, outputs, captureSamples, heq⟩ <;> rw [heq]
  · exact hs
  · have hnot := not_holds_of_free hfree
    obtain ⟨hslot, hslotEpoch, hepoch, -⟩ := OutputEngine.routeOutputSet_frame
      { s.engine with slot := some Excitation.sweep, slotEpoch := s.engine.outputEpoch } outputs
    refine ⟨hs.path.armLocateCapture 0 captureSamples, fun _ =>
      CapturePath.PathInv.live_armLocateCapture captureSamples, Solo.of_only .sweep fun y hy => ?_,
      fun h => absurd h (hnot .locate), fun _ => ?_, fun h => absurd h (hnot .cal)⟩
    · cases y with
      | locate => exact absurd hy (hnot .locate)
      | sweep => rfl
      | cal => exact absurd hy (hnot .cal)
      | other => exact absurd hy (hnot .other)
    · exact ⟨Nat.le_of_eq hepoch.symm, rfl, rfl,
        fun _ => ⟨⟨hslot, hslotEpoch.trans hepoch.symm⟩, nofun⟩, rfl, rfl, rfl, rfl⟩

theorem PressInv.abortSweep (hbusy : s.sweepBusy = true) :
    PressInv s.abortSweep := by
  refine hs.recedes (hs.solo.recedes_sweep hbusy rfl ?_ rfl rfl rfl)
  simp [PressRun.abortSweep, sweepArmed]

theorem PressInv.pollPreRoll (hstate : s.sweep.state = .preRoll) (nowMs : ℚ) :
    PressInv (s.pollPreRoll nowMs) := by
  have harmed : s.sweepArmed := .inl hstate
  have hbusy : s.sweepBusy = true := harmed.holds
  rw [PressRun.pollPreRoll]
  split
  · exact hs.abortSweep hbusy
  · split
    · exact hs
    · -- the sweep plays from here on
      have hfacts := hs.sweep harmed
      refine ⟨hs.path, fun _ => hs.live (.inr (.inl harmed)), hs.solo.mono fun x hx => ?_,
        fun h => absurd h (hs.solo.not_locateBusy hbusy), fun _ => ?_, hs.check⟩
      · cases x with
        | locate => exact hx
        | sweep => exact hbusy
        | cal => exact hx
        | other => exact hx
      · exact ⟨hfacts.le, hfacts.epoch, hfacts.mode,
          fun hepoch => ⟨(hfacts.source hepoch).1, fun _ => rfl⟩, hfacts.armed⟩

omit hs in
theorem pollPlaying_cases (s : PressRun) (nowMs : ℚ) :
    s.pollPlaying nowMs = (s, none) ∨ s.pollPlaying nowMs = (s.abortSweep, none) ∨
      ∃ capture, s.path.tap.locateCapture = some capture ∧
        s.pollPlaying nowMs =
          ({ s with
              engine := s.engine.disarmSource
              sweep := { s.sweep with lastHandled := none, state := .analysing } },
            some capture.2) := by
  rw [pollPlaying]
  split
  · rename_i capture hcapture
    split
    · exact .inr (.inr ⟨capture, hcapture, rfl⟩)
    · split
      · exact .inr (.inl rfl)
      · exact .inl rfl
  · split
    · exact .inr (.inl rfl)
    · exact .inl rfl

theorem PressInv.pollPlaying (hstate : s.sweep.state = .playing) (nowMs : ℚ) :
    PressInv (s.pollPlaying nowMs).1 := by
  have hbusy : s.sweepBusy = true := sweepArmed.holds (.inr hstate)
  rcases s.pollPlaying_cases nowMs with heq | heq | ⟨capture, -, heq⟩ <;> rw [heq]
  · exact hs
  · exact hs.abortSweep hbusy
  · refine hs.recedes (hs.solo.recedes_sweep hbusy rfl ?_ rfl rfl rfl)
    simp [sweepArmed]

theorem PressInv.pollSweep (nowMs : ℚ) (outcome : Bool) :
    PressInv (s.pollSweep nowMs outcome).1 := by
  rw [PressRun.pollSweep.eq_def]
  split
  · exact hs
  · rename_i hstate
    split
    · refine hs.recedes (hs.solo.recedes_sweep ?_ rfl ?_ rfl rfl rfl)
      · simp [sweepBusy, hstate]
      · simp [sweepArmed]
    · exact hs
  · rename_i hstate
    split
    · exact hs.abortSweep (sweepArmed.holds (.inl hstate))
    · exact hs.pollPreRoll hstate nowMs
  · rename_i hstate
    split
    · exact hs.abortSweep (sweepArmed.holds (.inr hstate))
    · exact hs.pollPlaying hstate nowMs

variable {outcome : Bool} {nowMs : ℚ}

omit hs in
theorem pollSweep_eq_some (h : (s.pollSweep nowMs outcome).2 = some capture) :
    s.sweep.state = .playing ∧ ¬ s.sweepSpoilt ∧
      ∃ number, s.path.tap.locateCapture = some (number, capture) := by
  rw [PressRun.pollSweep.eq_def] at h
  split at h
  · cases h
  · split at h <;> cases h
  · split at h <;> cases h
  · rename_i hstate
    split at h
    · cases h
    · rename_i hspoilt
      refine ⟨hstate, hspoilt, ?_⟩
      rcases s.pollPlaying_cases nowMs with heq | heq | ⟨stored, hslot, heq⟩ <;> rw [heq] at h <;>
        cases h
      exact ⟨stored.1, hslot⟩

theorem PressInv.owed_sweep {t : PressRun} (h : (s.pollSweep nowMs outcome).2 = some capture) :
    s.Owed t capture (.pollSweep nowMs outcome) := by
  obtain ⟨hstate, hspoilt, number, hslot⟩ := pollSweep_eq_some h
  simp only [sweepSpoilt, not_or, not_not] at hspoilt
  obtain ⟨hepoch, hmode, hseq, hdrops⟩ := hspoilt
  have harmed : s.sweepArmed := .inr hstate
  have hfacts := hs.sweep harmed
  obtain ⟨-, hstretch⟩ := isStretch_of_counters hs.path (hs.live (.inr (.inl harmed))) hfacts.armed
    (hmode.trans hfacts.mode) hseq hdrops hslot
  exact ⟨hepoch.trans hfacts.epoch, hstretch⟩

/-! ### CAL -/

omit hs in
/-- The output is as it was, and CAL waits no longer or waits on. -/
theorem recedes_cal {t : PressRun} (hpath : t.path = s.path) (hengine : t.engine = s.engine)
    (hlocate : t.locate = s.locate) (hsweep : t.sweep = s.sweep)
    (hheld : t.outputHeld = s.outputHeld) (hcal : t.cal.calibrationCaptureArmed = false) :
    Recedes s t where
  path := hpath
  holds x hx := by
    cases x with
    | locate => simpa only [Holds, locateBusy, hlocate] using hx
    | sweep => simpa only [Holds, sweepBusy, hsweep] using hx
    | cal => cases hcal.symm.trans hx
    | other => simpa only [Holds, hheld] using hx
  locate _ := ⟨hlocate, hengine⟩
  sweep _ := ⟨hsweep, hengine⟩
  cal h := nomatch hcal.symm.trans h

theorem PressInv.armCalibration (hfree : s.outputBusy = false) (isStart : Bool)
    (nowMs : ℚ) : PressInv (s.armCalibration isStart nowMs) := by
  have hnot := not_holds_of_free hfree
  refine ⟨hs.path.armLocateCapture _ _, fun _ => CapturePath.PathInv.live_armLocateCapture _,
    Solo.of_only .cal fun y hy => ?_, fun h => absurd h (hnot .locate),
    fun h => absurd h.holds (hnot .sweep),
    fun _ => ⟨fun _ => ⟨rfl, rfl⟩, nofun, nofun, nofun, nofun⟩⟩
  cases y with
  | locate => exact absurd hy (hnot .locate)
  | sweep => exact absurd hy (hnot .sweep)
  | cal => rfl
  | other => exact absurd hy (hnot .other)

theorem PressInv.calibrationStartClicked (nowMs : ℚ) :
    PressInv (s.calibrationStartClicked nowMs) := by
  rw [PressRun.calibrationStartClicked]
  split
  · exact hs
  · rename_i hfree
    exact hs.armCalibration (Bool.eq_false_of_not_eq_true hfree) true nowMs

theorem PressInv.calibrationEndClicked (nowMs : ℚ) :
    PressInv (s.calibrationEndClicked nowMs) := by
  rw [PressRun.calibrationEndClicked]
  split
  · exact hs
  · rename_i hfree
    split
    · exact hs
    · exact hs.armCalibration (Bool.eq_false_of_not_eq_true hfree) false nowMs

omit hs in
theorem pollCalibrationPipeline_cases (s : PressRun) (nowMs : ℚ) :
    s.pollCalibrationPipeline nowMs = (s, none) ∨
      s.pollCalibrationPipeline nowMs =
        ({ s with cal := { s.cal with calibrationCaptureArmed := false } }, none) ∨
      ∃ capture, s.cal.calibrationCaptureArmed = true ∧ s.path.tap.locateCapture = some capture ∧
        s.pollCalibrationPipeline nowMs = ({ s with cal := s.recordCheck capture }, some capture.2) := by
  rw [pollCalibrationPipeline]
  dsimp only
  split
  · exact .inl rfl
  · rename_i harmed
    have hwaited : ∀ r : PressRun × Option (LocateCapture CapturedFrame),
        r = (if captureTimedOut s.cal.calibrationCaptureArmedAtMs nowMs
            kCalibrationCaptureTimeoutMs then
          { s with cal := { s.cal with calibrationCaptureArmed := false } } else s, none) →
        r = (s, none) ∨ r = ({ s with cal := { s.cal with calibrationCaptureArmed := false } }, none) := by
      intro r hr
      split at hr
      · exact .inr hr
      · exact .inl hr
    split
    · rename_i capture hcapture
      split
      · refine .inr (.inr ⟨capture, ?_, hcapture, rfl⟩)
        simpa using harmed
      · exact (hwaited _ rfl).imp id .inl
    · exact (hwaited _ rfl).imp id .inl

omit hs in
theorem recordCheck_armed (s : PressRun) (capture : ℕ × LocateCapture CapturedFrame) :
    (s.recordCheck capture).calibrationCaptureArmed = false := by
  rw [recordCheck]
  split <;> rfl

omit hs in
theorem recordCheck_channel (s : PressRun) (capture : ℕ × LocateCapture CapturedFrame) :
    (s.recordCheck capture).calibrationChannel =
      ((calibrationMeasurementChannel s.path.plan kCalibrationRouteIndex).map (↑·)).getD (-1) := by
  rw [recordCheck]
  split <;> rfl

theorem PressInv.pollCalibrationPipeline (nowMs : ℚ) :
    PressInv (s.pollCalibrationPipeline nowMs).1 := by
  rcases s.pollCalibrationPipeline_cases nowMs with heq | heq | ⟨capture, -, -, heq⟩ <;> rw [heq]
  · exact hs
  · exact hs.recedes (recedes_cal rfl rfl rfl rfl rfl rfl)
  · exact hs.recedes (recedes_cal rfl rfl rfl rfl rfl (s.recordCheck_armed capture))

theorem PressInv.owed_calibration {nowMs : ℚ}
    (h : (s.pollCalibrationPipeline nowMs).2 = some capture) :
    s.Owed (s.pollCalibrationPipeline nowMs).1 capture (.pollCalibration nowMs) := by
  rcases s.pollCalibrationPipeline_cases nowMs with heq | heq | ⟨stored, harmed, hslot, heq⟩ <;>
    rw [heq] at h ⊢ <;> cases h
  have hfacts := hs.check harmed
  have hrequest := (hs.live (.inr (.inr harmed))).request_eq_false hslot
  obtain ⟨b, hbegun, hstretch⟩ := hfacts.stored stored hslot
  obtain ⟨hsession, hmode, hchannel⟩ := hfacts.begun hrequest b hbegun
  refine ⟨b.route, b.first, hsession ▸ hmode ▸ hstretch, ?_⟩
  exact (s.recordCheck_channel stored).trans (by rw [hchannel]; rfl)

/-! ### The others, and the input mode -/

theorem PressInv.holdOutput (client : OutputClient) :
    PressInv (s.holdOutput client) := by
  rw [PressRun.holdOutput]
  split
  · exact hs
  · rename_i hfree
    have hnot := not_holds_of_free (Bool.eq_false_of_not_eq_true hfree)
    rw [OutputEngine.setSource_eq]
    split
    · simp only [Bool.not_true, Bool.false_eq_true, if_false]
      refine ⟨hs.path, hs.live, Solo.of_only .other fun y hy => ?_,
        fun h => absurd h (hnot .locate), fun h => absurd h.holds (hnot .sweep), hs.check⟩
      cases y with
      | locate => exact absurd hy (hnot .locate)
      | sweep => exact absurd hy (hnot .sweep)
      | cal => exact absurd hy (hnot .cal)
      | other => rfl
    · exact hs

theorem PressInv.releaseOutput : PressInv s.releaseOutput := by
  rw [PressRun.releaseOutput]
  split
  · rename_i hheld
    refine hs.recedes ⟨rfl, fun x hx => ?_, fun h => ?_, fun h => ?_, fun _ => rfl⟩
    · cases x with
      | locate => exact hx
      | sweep => exact hx
      | cal => exact hx
      | other => exact hheld
    · exact nomatch hs.solo .locate .other h hheld
    · exact nomatch hs.solo .sweep .other (sweepArmed.holds (s := s) h) hheld
  · exact hs

/-- LOCATE is cancelled before the input mode changes. -/
theorem PressInv.setSyntheticMode (enabled : Bool)
    (hkept : s.cal.calibrationCaptureArmed = true → s.CheckKept (s.setSyntheticMode enabled)) :
    PressInv (s.setSyntheticMode enabled) := by
  have hcancelled := hs.recedes (cancelLocate_recedes hs.solo)
  have hpath := (cancelLocate_recedes hs.solo).path
  have hcal : s.cancelLocate.cal = s.cal := by
    rw [cancelLocate]
    split <;> rfl
  have hidle := s.not_locateBusy_cancelLocate
  have hkept' : s.cancelLocate.cal.calibrationCaptureArmed = true →
      s.cancelLocate.CheckKept (s.setSyntheticMode enabled) := by
    rw [hcal, CheckKept, hpath]
    exact hkept
  revert hkept'
  rw [PressRun.setSyntheticMode]
  split
  · exact fun _ => hs
  · split
    · exact hcancelled.enterSynthetic hidle
    · exact hcancelled.leaveSynthetic hidle

/-! ### Every run -/

omit hs in
theorem PressInv.start {bus : CaptureBus CapturedFrame} (hbus : bus.consumerAttached = true)
    (engine : OutputEngine Excitation) (synthetic : Bool) :
    PressInv (.start bus engine synthetic) := by
  refine ⟨⟨hbus, nofun, nofun, .refl _, nofun⟩, fun h => ?_, fun x _ hx _ => ?_, fun h => ?_,
    fun h => ?_, nofun⟩
  · rcases h with h | (h | h) | h <;> cases h
  · cases x with
    | locate => rcases hx with h | h <;> cases h
    | sweep => cases hx
    | cal => cases hx
    | other => cases hx
  · rcases h with h | h <;> cases h
  · rcases h with h | h <;> cases h

variable {t : PressRun} {a : PressAct}

theorem PressInv.step {hop : ℕ}
    (hstep : (pressRuns hop).step s a = some t) (hok : CaptureKept s a t) : PressInv t := by
  cases a with
  | push n =>
    cases hstep
    exact hs.push n hok.2.2
  | render numOutputChannels numSamples =>
    cases hstep
    exact hs.render numOutputChannels numSamples
  | analysis now =>
    cases hstep
    exact hs.analysis hop now hok
  | setRole channel role =>
    cases hstep
    exact hs.setRole hok
  | setTransferFunction channel tf =>
    cases hstep
    exact hs.setTransferFunction hok.2.2
  | restart sampleRate inputs outputs =>
    simp only [pressRuns] at hstep
    split at hstep <;> cases hstep
    exact hs.restart sampleRate inputs outputs hok.2.2
  | stop =>
    simp only [pressRuns] at hstep
    split at hstep <;> cases hstep
    exact hs.stop hok.2.2
  | setSyntheticMode enabled =>
    cases hstep
    exact hs.setSyntheticMode enabled hok.2.2
  | locateClicked outputs =>
    cases hstep
    exact hs.locateClicked outputs
  | pollLocate =>
    cases hstep
    exact hs.pollLocatePipeline hok.2.1
  | startOn outputChannel named outputChannels driveOutputs durationSec tailSeconds nowMs =>
    cases hstep
    exact hs.startOn outputChannel named outputChannels driveOutputs durationSec tailSeconds nowMs
  | pollSweep nowMs outcome =>
    cases hstep
    exact hs.pollSweep nowMs outcome
  | calibrationStartClicked nowMs =>
    cases hstep
    exact hs.calibrationStartClicked nowMs
  | calibrationEndClicked nowMs =>
    cases hstep
    exact hs.calibrationEndClicked nowMs
  | pollCalibration nowMs =>
    cases hstep
    exact hs.pollCalibrationPipeline nowMs
  | holdOutput client =>
    cases hstep
    exact hs.holdOutput client
  | releaseOutput =>
    cases hstep
    exact hs.releaseOutput

/-- What the invariant says of a capture that is handed on. -/
theorem PressInv.handsOverWhole {hop : ℕ}
    (hstep : (pressRuns hop).step s a = some t) : HandsOverWhole s a t := by
  refine ⟨hs.excites, fun capture hcapture => ?_⟩
  cases a with
  | pollLocate => exact hs.owed_locate hcapture
  | pollSweep nowMs outcome => exact hs.owed_sweep hcapture
  | pollCalibration nowMs =>
    cases hstep
    exact hs.owed_calibration hcapture
  | _ => cases hcapture

end

/-- **Headline.** In every run in which what a feature waits for is left whole -- no capture of an
earlier request is stored for it; it begins with the two rings in step; the pair stays at position
0, and neither channel is given back a role that it lost; LOCATE arms in the session of its press;
and under CAL nothing is restarted, switched, lost or routed anew -- every capture that is handed on
is one stretch of one pair of channels, in the session and the mode of the press, CAL attributes
its own to the channel it was measured on, and the source of the press was armed for it. -/
theorem pressRuns_handsOverWhole {hop : ℕ} {s : PressRun} (hinit : (pressRuns hop).init s)
    (acts : List PressAct) (hok : (pressRuns hop).AlongSteps CaptureKept s acts) :
    (pressRuns hop).AlongSteps HandsOverWhole s acts := by
  obtain ⟨bus, engine, synthetic, hbus, rfl⟩ := hinit
  refine Machine.AlongSteps.of_invariant PressInv ?_ (.start hbus engine synthetic) hok
  intro s a t hs hstep hok
  exact ⟨hs.step hstep hok, hs.handsOverWhole hstep⟩

/-- A microphone on channel 0, and a reference each on channels 1 and 2. -/
def twoReferences : CaptureBus CapturedFrame :=
  CaptureBus.attachConsumer
    { CaptureBus.make 8 with
      config :=
        { roles := fun ch => if ch = 0 then .measurement else if ch ≤ 2 then .reference else .unused
          tfIndex := fun ch => if ch = 2 then 1 else 0 }
      active := true
      sampleRate := 1
      preparedChannels := 3 }

/-- One frame, and a tick that drains it in hops of one. -/
def frameAndTick : List PressAct :=
  .push 1 :: List.replicate 6 (.analysis 0)

/-- A sweep of two samples, which plays, and captures its first sample. -/
def sweepActs : List PressAct :=
  .startOn 0 true 1 [] 1 0 0 :: .pollSweep 100 false :: frameAndTick

theorem pressRuns_handsOverWhole_sweep :
    (pressRuns 1).AlongSteps HandsOverWhole
      (.start twoReferences (OutputEngine.make.prepare 1 1) false)
      (sweepActs ++ frameAndTick ++ [.pollSweep 200 false]) :=
  pressRuns_handsOverWhole ⟨_, _, _, rfl, rfl⟩ _ (by decide +kernel)

theorem HandsOverWhole.one_reference {t : PressRun} {a : PressAct} (h : HandsOverWhole s a t) :
    ∀ capture ∈ s.handed a, ∀ x ∈ capture.reference, ∀ y ∈ capture.reference,
      x.channel = y.channel := by
  intro capture hcapture
  have howed := h.2 capture hcapture
  have hstretch : ∃ session synthetic route first,
      capture.IsStretch session synthetic route first := by
    cases a with
    | pollLocate =>
      obtain ⟨-, route, first, hstretch⟩ := howed
      exact ⟨_, _, route, first, hstretch⟩
    | pollSweep nowMs outcome =>
      obtain ⟨-, route, first, hstretch⟩ := howed
      exact ⟨_, _, route, first, hstretch⟩
    | pollCalibration nowMs =>
      obtain ⟨route, first, hstretch, -⟩ := howed
      exact ⟨_, _, route, first, hstretch⟩
    | _ => cases hcapture
  obtain ⟨session, synthetic, route, first, hreference, -⟩ := hstretch
  have hchannel : ∀ x ∈ capture.reference, x.channel = route.referenceChannel := by
    rw [hreference]
    intro x hx
    obtain ⟨n, -, rfl⟩ := List.mem_map.mp hx
    rfl
  intro x hx y hy
  rw [hchannel x hx, hchannel y hy]

/-- **A tag moves the route.** Between the first sample of a sweep and the second the microphone gets
the tag of the other reference: position 0 goes on with channel 2, no counter moves, and the worker
is handed one sample of each. -/
theorem pressRuns_mixes_references :
    ¬ ∀ (hop : ℕ) (s : PressRun), (pressRuns hop).init s → ∀ acts : List PressAct,
      (pressRuns hop).AlongSteps HandsOverWhole s acts := by
  intro h
  have hall := h 1 (.start twoReferences (OutputEngine.make.prepare 1 1) false)
    ⟨_, _, _, rfl, rfl⟩ (sweepActs ++ .setTransferFunction 0 1 :: frameAndTick ++
      [.pollSweep 200 false])
  have hone := Machine.AlongSteps.of_invariant (M := pressRuns 1)
    (P := fun s a _ => ∀ capture ∈ s.handed a, ∀ x ∈ capture.reference, ∀ y ∈ capture.reference,
      x.channel = y.channel) (fun _ => True)
    (fun _ _ _ _ _ hwhole => ⟨trivial, hwhole.one_reference⟩) trivial hall
  revert hone
  decide +kernel

end PressRun

end RtaTool
