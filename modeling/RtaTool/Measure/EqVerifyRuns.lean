import RtaTool.Lib.Machine
import RtaTool.Measure.EqVerify

/-!
# Correction-check runs

Presses, polls, blocks and device restarts in any order, each press and poll with its own view of
the host. A run is spread over many polls and rests on three things the runner does not own: the
engine's armed flag, its epoch and its counter.

A restart disarms the engine but leaves the counter where it is, and afterwards the device reports
running again. A runner that has seen its dwell rendered and was only waiting for a usable snapshot
then submits one of a silent room. The sibling runners compare the epoch on every poll; this one
does not, and the comparison is all that is missing: along any run the property holds throughout if
and only if no poll submits at another epoch than the press's.

The last four fields of `VerifyRun` are bookkeeping that no operation reads.

## Main definitions

* `Processed` -- a source that has rendered for a while is still that source
* `VerifyRun`, `VerifyAct`, `verifyRuns` -- the machine
* `SubmitsWhilePlaying` -- the property, on steps
* `ReadyAtOwnEpoch` -- the condition, on steps

## Main results

* `submits_while_playing_iff` -- the two are equivalent along every run
-/

namespace RtaTool

open OutputEngine EqVerifyRunner

/-- What a source becomes by rendering. -/
inductive Processed {Src : Type} [AudioSource Src] (own : Src) : Src → Prop
  | start : Processed own own
  | step {src : Src} (h : Processed own src) (n : ℕ) : Processed own (process src n)

/-- The engine, the runner, and what has become of the current run. -/
structure VerifyRun (Src Report : Type) where
  engine : OutputEngine Src
  runner : EqVerifyRunner Report
  /-- The source of the last accepted press. -/
  own : Option Src
  /-- The output epoch at that press. -/
  runEpoch : ℕ
  /-- Armed ever since: no restart and no disarm. -/
  stayed : Bool
  /-- Samples rendered while it stayed armed, since Measuring was observed. -/
  measured : ℕ

/-- What can happen next. -/
inductive VerifyAct
  | press (h : HostView)
  | poll (h : HostView)
  | render (hasOutput : Bool) (numOutputChannels numSamples : ℤ)
  | prepare (rate : ℚ) (numOutputChannels : ℤ)

namespace VerifyRun

variable {Src Report : Type} (pinkNoise : UInt64 → ℚ → Src)
  (compare : TransferEstimate → EqPaneView → VerifyTolerance → Report)

/-- A fresh runner over the engine as it stands. -/
def fresh (e : OutputEngine Src) : VerifyRun Src Report where
  engine := e
  runner := {}
  own := none
  runEpoch := 0
  stayed := false
  measured := 0

/-- The effect of one action. -/
def next [AudioSource Src] (s : VerifyRun Src Report) : VerifyAct → VerifyRun Src Report
  | .press h =>
    let r := press pinkNoise s.engine s.runner h
    if r.1 then
      { engine := r.2.1
        runner := r.2.2
        own := some (pressSource pinkNoise s.engine h)
        runEpoch := s.engine.outputEpoch
        stayed := true
        measured := 0 }
    else { s with engine := r.2.1, runner := r.2.2 }
  | .poll h =>
    let r := EqVerifyRunner.poll compare s.engine s.runner h
    { s with
      engine := r.1
      runner := r.2
      stayed := s.stayed && r.1.armed
      measured := if s.runner.state = .waiting then 0 else s.measured }
  | .render hasOutput numOutputChannels numSamples =>
    { s with
      engine := s.engine.render hasOutput numOutputChannels numSamples
      measured := s.measured +
        if s.stayed then s.engine.samplesRendered hasOutput numSamples else 0 }
  | .prepare rate numOutputChannels =>
    { s with engine := s.engine.prepare rate numOutputChannels, stayed := false }

end VerifyRun

/-- Every run of a runner, over whatever engine it finds. -/
def verifyRuns {Src Report : Type} [AudioSource Src] (pinkNoise : UInt64 → ℚ → Src)
    (compare : TransferEstimate → EqPaneView → VerifyTolerance → Report) :
    Machine (VerifyRun Src Report) VerifyAct where
  init s := ∃ e, s = .fresh e
  step s a := some (s.next pinkNoise compare a)

namespace VerifyRun

variable {Src Report : Type} {pinkNoise : UInt64 → ℚ → Src}
  {compare : TransferEstimate → EqPaneView → VerifyTolerance → Report}

/-- The step took a snapshot: a check that was waiting or being measured is now settling. -/
def Submits (s t : VerifyRun Src Report) : Prop :=
  s.runner.state ≠ .settling ∧ t.runner.state = .settling

instance (s t : VerifyRun Src Report) : Decidable (Submits s t) :=
  inferInstanceAs (Decidable (_ ∧ _))

/-- The engine has stayed armed since the press, with the run's own source, at the run's own
epoch. -/
structure StillPlaying [AudioSource Src] (s : VerifyRun Src Report) : Prop where
  stayed : s.stayed = true
  armed : s.engine.armed = true
  slot : ∃ own src, s.own = some own ∧ s.engine.slot = some src ∧ Processed own src
  slotEpoch : s.engine.slotEpoch = s.runEpoch
  outputEpoch : s.engine.outputEpoch = s.runEpoch

/-- A snapshot is submitted only from an engine that is still playing the run, and after the
transfer dwell has been rendered since Measuring was observed. -/
def SubmitsWhilePlaying [AudioSource Src] (s : VerifyRun Src Report) (a : VerifyAct)
    (t : VerifyRun Src Report) : Prop :=
  match a with
  | .poll h => Submits s t → StillPlaying s ∧ dwellSamples s.engine h ≤ t.measured
  | _ => ¬ Submits s t

/-- A poll that finds everything ready for a submission finds the engine at the epoch of the
press. -/
def ReadyAtOwnEpoch (s : VerifyRun Src Report) (a : VerifyAct) (_ : VerifyRun Src Report) : Prop :=
  match a with
  | .poll h => takesSnapshot s.engine s.runner h = true → s.engine.outputEpoch = s.runEpoch
  | _ => True

instance (s : VerifyRun Src Report) :
    ∀ (a : VerifyAct) (t : VerifyRun Src Report), Decidable (ReadyAtOwnEpoch s a t)
  | .poll _, _ => inferInstanceAs (Decidable (_ → _))
  | .press _, _ => isTrue trivial
  | .render _ _ _, _ => isTrue trivial
  | .prepare _ _, _ => isTrue trivial

/-! ### The invariant -/

/-- The invariant of a run: at its own epoch it is still playing, and while it is the counter has
kept account of what was rendered for the measurement. It does not depend on how the run's polls
turn out. -/
structure RunInv [AudioSource Src] (s : VerifyRun Src Report) : Prop where
  epoch_le : s.runEpoch ≤ s.engine.outputEpoch
  playing : s.runner.state = .waiting ∨ s.runner.state = .measuring →
    s.engine.outputEpoch = s.runEpoch → StillPlaying s
  counted : s.runner.state = .measuring → s.stayed = true →
    s.engine.renderedSamples = s.runner.measuringRendered + UInt64.ofNat s.measured

theorem runInv_fresh [AudioSource Src] (e : OutputEngine Src) :
    RunInv (fresh e : VerifyRun Src Report) where
  epoch_le := Nat.zero_le _
  playing h := by rcases h with h | h <;> cases h
  counted h := nomatch h

theorem RunInv.of_not_running [AudioSource Src] {t : VerifyRun Src Report}
    (hle : t.runEpoch ≤ t.engine.outputEpoch)
    (h : t.runner.state ≠ .waiting ∧ t.runner.state ≠ .measuring) : RunInv t where
  epoch_le := hle
  playing hr := (hr.elim h.1 h.2).elim
  counted hm := (h.2 hm).elim

theorem render_slot_processed [AudioSource Src] {own : Src} {e : OutputEngine Src}
    (h : ∃ src, e.slot = some src ∧ Processed own src) (hasOutput : Bool)
    (channels samples : ℤ) :
    ∃ src, (e.render hasOutput channels samples).slot = some src ∧ Processed own src := by
  rw [render]
  split
  · exact h
  · split
    · exact h
    · refine renderLoop_induction (P := fun e => ∃ src, e.slot = some src ∧ Processed own src)
        (clampChannels channels) ?_ samples.toNat samples.toNat e.requestMaster h
      rintro e chunk ⟨src, hsrc, hown⟩
      exact ⟨process src chunk, by rw [renderChunk, hsrc]; rfl, hown.step chunk⟩

variable {s : VerifyRun Src Report}

theorem RunInv.press [AudioSource Src] (hs : RunInv s) (h : HostView) :
    RunInv (s.next pinkNoise compare (.press h)) := by
  by_cases hacc : PressAccepts s.engine s.runner h
  · obtain ⟨e', r', hpress, harmed, hstate⟩ := press_of_accepts pinkNoise hacc
    rw [VerifyRun.next, hpress, if_pos rfl]
    refine ⟨harmed.outputEpoch.ge, fun _ _ => ⟨rfl, harmed.armed, ?_, harmed.slotEpoch,
      harmed.outputEpoch⟩, fun hm => absurd (hstate.symm.trans hm) (by simp)⟩
    exact ⟨_, _, rfl, harmed.slot, .start⟩
  · obtain ⟨why, hpress⟩ := press_of_not_accepts pinkNoise hacc
    rw [VerifyRun.next, hpress, if_neg (by simp)]
    exact ⟨hs.epoch_le, fun hr he => ⟨(hs.playing hr he).stayed, (hs.playing hr he).armed,
      (hs.playing hr he).slot, (hs.playing hr he).slotEpoch, he⟩, hs.counted⟩

theorem RunInv.prepare [AudioSource Src] (hs : RunInv s) (rate : ℚ)
    (channels : ℤ) : RunInv (s.next pinkNoise compare (.prepare rate channels)) where
  epoch_le := Nat.le_succ_of_le hs.epoch_le
  playing _ he := by
    have hlt := Nat.lt_succ_of_le hs.epoch_le
    exact absurd he.symm hlt.ne
  counted _ hst := nomatch hst

theorem RunInv.render [AudioSource Src] (hs : RunInv s) (hasOutput : Bool) (channels samples : ℤ) :
    RunInv (s.next pinkNoise compare (.render hasOutput channels samples)) := by
  have hctl := s.engine.render_sameControl hasOutput channels samples
  refine ⟨hctl.outputEpoch.symm ▸ hs.epoch_le, fun hr he => ?_, fun hm hst => ?_⟩
  · obtain ⟨hst, ha, ⟨own, src, hown, hsrc, hpro⟩, hse, hoe⟩ :=
      hs.playing hr (hctl.outputEpoch.symm.trans he)
    obtain ⟨src', hsrc', hpro'⟩ := render_slot_processed ⟨src, hsrc, hpro⟩ hasOutput channels samples
    exact ⟨hst, hctl.armed.trans ha, ⟨own, src', hown, hsrc', hpro'⟩, hctl.slotEpoch.trans hse, he⟩
  · have hcount := hs.counted hm hst
    have hst' : s.stayed = true := hst
    show (s.engine.render hasOutput channels samples).renderedSamples =
      s.runner.measuringRendered + UInt64.ofNat (_ + _)
    rw [render_renderedSamples, hcount, if_pos hst', UInt64.ofNat_add, UInt64.add_assoc]

variable {r : EqVerifyRunner Report} {h : HostView}

/-- A poll keeps the epochs, and it ends the measurement or keeps its count. -/
theorem RunInv.of_submitOutcome [AudioSource Src] {s t : VerifyRun Src Report} (hs : RunInv s)
    (hr : s.runner.state = .waiting ∨ s.runner.state = .measuring)
    (hcount : s.stayed = true →
      s.engine.renderedSamples = r.measuringRendered + UInt64.ofNat t.measured)
    (hout : SubmitOutcome s.engine r h (t.engine, t.runner)) (hown : t.own = s.own)
    (hepoch : t.runEpoch = s.runEpoch) (hstayed : t.stayed = (s.stayed && t.engine.armed)) :
    RunInv t := by
  generalize he : t.engine = e' at hout
  generalize hr' : t.runner = r' at hout
  cases hout with
  | waited hnot =>
    refine ⟨?_, fun _ heq => ?_, fun _ hst => ?_⟩
    · rw [he, hepoch]
      exact hs.epoch_le
    · rw [he, hepoch] at heq
      obtain ⟨hst, ha, hslot, hse, hoe⟩ := hs.playing hr heq
      refine ⟨by rw [hstayed, hst, he, ha]; rfl, he ▸ ha, ?_, ?_, ?_⟩
      · rw [hown, he]
        exact hslot
      · rw [he, hepoch]
        exact hse
      · rw [he, hepoch]
        exact hoe
    · rw [hstayed, Bool.and_eq_true] at hst
      rw [he, hr']
      exact hcount hst.1
  | aborted why hnot =>
    refine .of_not_running ?_ (by simp [hr', EqVerifyRunner.state])
    rw [he, hepoch]
    exact hs.epoch_le
  | submitted v hready hv =>
    refine .of_not_running ?_ (by simp [hr', EqVerifyRunner.state, hv])
    rw [he, hepoch]
    exact hs.epoch_le

theorem RunInv.poll [AudioSource Src] (hs : RunInv s) (h : HostView) :
    RunInv (s.next pinkNoise compare (.poll h)) := by
  have hcases := poll_cases compare s.engine s.runner h
  rw [VerifyRun.next]
  generalize EqVerifyRunner.poll compare s.engine s.runner h = out at hcases
  cases hcases with
  | kept r' hstate hrendered hnot =>
    refine ⟨hs.epoch_le, fun hr he => ?_, fun hm hst => ?_⟩
    · obtain ⟨hst, ha, hslot, hse, hoe⟩ := hs.playing (hstate ▸ hr) he
      exact ⟨by simp [hst, ha], ha, hslot, hse, hoe⟩
    · have hmeasuring : s.runner.state = .measuring := hstate.symm.trans hm
      rw [if_neg (by simp [hmeasuring])]
      show s.engine.renderedSamples = r'.measuringRendered + _
      rw [hrendered]
      exact hs.counted hmeasuring (Bool.and_eq_true _ _ ▸ hst).1
  | finished e' r' hstate hepoch hnot =>
    refine .of_not_running (hs.epoch_le.trans_eq hepoch.symm) ?_
    rcases hstate with hs' | hs' <;> simp [hs']
  | observed r' hwaiting hstate hrendered htakes hsubmit =>
    refine hs.of_submitOutcome (.inl hwaiting) (fun _ => ?_) hsubmit rfl rfl rfl
    rw [if_pos hwaiting, hrendered]
    exact (UInt64.add_zero _).symm
  | measured hmeasuring htakes hsubmit =>
    refine hs.of_submitOutcome (.inr hmeasuring) (fun hst => ?_) hsubmit rfl rfl rfl
    rw [if_neg (by simp [hmeasuring])]
    exact hs.counted hmeasuring hst

theorem RunInv.step [AudioSource Src] (hs : RunInv s) :
    ∀ a : VerifyAct, RunInv (s.next pinkNoise compare a)
  | .press h => hs.press h
  | .poll h => hs.poll h
  | .render hasOutput channels samples => hs.render hasOutput channels samples
  | .prepare rate channels => hs.prepare rate channels

/-! ### The property and its condition -/

/-- While it counts for a run, the counter's difference is at most what was rendered. -/
theorem renderedSince_le {e : OutputEngine Src} {n : ℕ}
    (h : e.renderedSamples = r.measuringRendered + UInt64.ofNat n) : renderedSince e r ≤ n := by
  have hsub : r.measuringRendered + UInt64.ofNat n - r.measuringRendered = UInt64.ofNat n := by
    rw [UInt64.add_comm, UInt64.add_sub_cancel]
  rw [renderedSince, h, hsub, UInt64.toNat_ofNat']
  exact Nat.mod_le _ _

theorem submits_poll_iff [AudioSource Src] (s : VerifyRun Src Report) (h : HostView) :
    Submits s (s.next pinkNoise compare (.poll h)) ↔
      takesSnapshot s.engine s.runner h = true :=
  poll_submits_iff compare s.engine s.runner h

theorem RunInv.dwell [AudioSource Src] (hs : RunInv s)
    (htakes : takesSnapshot s.engine s.runner h = true)
    (hepoch : s.engine.outputEpoch = s.runEpoch) :
    StillPlaying s ∧ dwellSamples s.engine h ≤ (s.next pinkNoise compare (.poll h)).measured := by
  have hcases := poll_cases compare s.engine s.runner h
  generalize EqVerifyRunner.poll compare s.engine s.runner h = out at hcases
  cases hcases with
  | kept r' hstate hrendered hnot => simp [hnot] at htakes
  | finished e' r' hstate _ hnot => simp [hnot] at htakes
  | observed r' hwaiting hstate hrendered hready hsubmit =>
    refine ⟨hs.playing (.inl hwaiting) hepoch, ?_⟩
    have hle : renderedSince s.engine r' ≤ 0 :=
      renderedSince_le (by rw [hrendered]; exact (UInt64.add_zero _).symm)
    refine ((hready.mp htakes).1.trans (Nat.cast_le.mpr hle)).trans ?_
    exact Nat.cast_le.mpr (Nat.zero_le _)
  | measured hmeasuring hready hsubmit =>
    have hplaying := hs.playing (.inr hmeasuring) hepoch
    refine ⟨hplaying, (hready.mp htakes).1.trans (Nat.cast_le.mpr ?_)⟩
    rw [VerifyRun.next]
    show _ ≤ if s.runner.state = .waiting then 0 else s.measured
    rw [if_neg (by simp [hmeasuring])]
    exact renderedSince_le (hs.counted hmeasuring hplaying.stayed)

/-- Under the invariant a step has the property exactly when the condition holds of it. -/
theorem RunInv.submitsWhilePlaying_iff [AudioSource Src] (hs : RunInv s) (a : VerifyAct) :
    SubmitsWhilePlaying s a (s.next pinkNoise compare a) ↔
      ReadyAtOwnEpoch s a (s.next pinkNoise compare a) := by
  cases a with
  | poll h =>
    rw [SubmitsWhilePlaying, ReadyAtOwnEpoch, submits_poll_iff]
    constructor
    · intro hp htakes
      exact (hp htakes).1.outputEpoch
    · intro hok htakes
      exact hs.dwell htakes (hok htakes)
  | press h =>
    refine iff_of_true ?_ trivial
    rintro ⟨hne, hset⟩
    by_cases hacc : PressAccepts s.engine s.runner h
    · obtain ⟨e', r', hpress, -, hstate⟩ := press_of_accepts pinkNoise hacc
      rw [VerifyRun.next, hpress, if_pos rfl] at hset
      exact absurd (hstate.symm.trans hset) (by simp)
    · obtain ⟨why, hpress⟩ := press_of_not_accepts pinkNoise hacc
      rw [VerifyRun.next, hpress, if_neg (by simp)] at hset
      exact hne hset
  | render hasOutput channels samples => exact iff_of_true (fun h => h.1 h.2) trivial
  | prepare rate channels => exact iff_of_true (fun h => h.1 h.2) trivial

/-- **Headline.** Along every run a snapshot is submitted only while the run's own excitation is
still playing, its dwell rendered, if and only if every poll that finds everything ready for a
submission finds the epoch of the press. -/
theorem submits_while_playing_iff [AudioSource Src] {s : VerifyRun Src Report}
    (hs : (verifyRuns pinkNoise compare).init s) (acts : List VerifyAct) :
    (verifyRuns pinkNoise compare).AlongSteps SubmitsWhilePlaying s acts ↔
      (verifyRuns pinkNoise compare).AlongSteps ReadyAtOwnEpoch s acts := by
  obtain ⟨e, rfl⟩ := hs
  refine Machine.alongSteps_iff RunInv ?_ ?_ (runInv_fresh e)
  · rintro s a t hs ht -
    exact Option.some.inj ht ▸ hs.step a
  · rintro s a t hs ht
    exact Option.some.inj ht ▸ hs.submitsWhilePlaying_iff a

/-! ### A restart between the dwell and the submission -/

/-- A press and its polls over a pane of three bins at 48 kHz, with a snapshot on that grid. -/
def steadyHost : HostView where
  attached := true
  environment := { deviceRunning := true }
  latest := some
    { fftSize := 4
      sampleRate := 48000
      transfer := some
        { magnitudeDb := [0, 0, 0], coherence := some [1, 1, 1], effectiveAverages := 16 } }
  captureConfig := {}
  nowMs := 0
  drive := none
  model :=
    { measurementId := []
      sampleRate := 48000
      measuredDb := [0, 0, 0]
      committed := [⟨⟨.peaking, 1000, 1, 3⟩, false⟩]
      ghostDb := [0, 0, 0]
      targetLineDb := [0, 0, 0]
      trusted := [true, true, true]
      trustFloor := 0 }

/-- Noise of a seed and a level, built for 48 kHz. -/
def noiseAt48k (seed : UInt64) (level : ℚ) : RatedSource (UInt64 × ℚ) := ⟨(seed, level), 48000, 0⟩

/-- Nothing is compared. -/
def compareNothing : TransferEstimate → EqPaneView → VerifyTolerance → Unit := fun _ _ _ => ()

/-- A stereo engine at 48 kHz and a fresh runner. -/
def stereoRun : VerifyRun (RatedSource (UInt64 × ℚ)) Unit := fresh (OutputEngine.make.prepare 48000 2)

/-- The check runs through: settled, then the dwell of 64 samples rendered, then submitted. -/
def throughRun : List VerifyAct :=
  [.press steadyHost, .render true 2 480, .poll steadyHost, .render true 2 64, .poll steadyHost]

/-- The same, with the device restarted before the last poll. -/
def restartedRun : List VerifyAct :=
  [.press steadyHost, .render true 2 480, .poll steadyHost, .render true 2 64, .prepare 48000 2,
    .poll steadyHost]

/-- The hypothesis is met by a run that does submit. -/
theorem submits_while_playing_throughRun :
    (((verifyRuns noiseAt48k compareNothing).exec stereoRun throughRun).any
      fun t => t.runner.state = .settling) = true ∧
    (verifyRuns noiseAt48k compareNothing).AlongSteps SubmitsWhilePlaying stereoRun throughRun :=
  ⟨by decide +kernel, (submits_while_playing_iff ⟨_, rfl⟩ _).mpr (by decide +kernel)⟩

/-- After the restart the snapshot is submitted from an engine that is not armed. -/
theorem submits_after_restart :
    ¬ (verifyRuns noiseAt48k compareNothing).AlongSteps SubmitsWhilePlaying stereoRun
      restartedRun := by
  intro h
  have hlast := (((((h.tail rfl).tail rfl).tail rfl).tail rfl).tail rfl).head rfl
  have harmed := (hlast (by decide +kernel)).1.armed
  exact absurd harmed (by decide +kernel)

end VerifyRun

end RtaTool
