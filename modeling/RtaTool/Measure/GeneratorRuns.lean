import RtaTool.Measure.GeneratorRunner
import RtaTool.Platform.OutputEngineThreads

/-!
# Generator runs

The runner's calls in any order, with the device restarting and blocks being rendered in between.
The environment and the clock are whatever each call reads. A block is cut where the audio thread
is cut in `RtaTool.Platform.OutputEngineThreads`, so a call may find one in flight.

Other features use the same engine while the runner is Idle: they may leave it in any condition
whatever, and that is what the `other` action says. While the runner is not Idle nobody else owns
the engine.

The engine has `kMaxChannels` outputs. A device may report more, or none (which reads as unknown),
and then the settings can name an output past the table: `routeOutput` refuses it, and nothing is
routed for it.

## Main definitions

* `GeneratorRun`, `GeneratorAct`, `generatorRuns` -- the machine
* `PlaysSettings` -- what is in the slot
* `GeneratorInv` -- the runner's phase against the engine

## Main results

* `generator_playing_faithful` -- while Playing in one epoch, the engine plays the settings
-/

namespace RtaTool

open OutputEngine GeneratorRig

variable {Src : Type} [AudioSource Src]

/-- `src`, after some blocks of it have been rendered. -/
inductive Advanced (src : Src) : Src → Prop
  | fresh : Advanced src src
  | rendered {t : Src} (n : ℕ) (h : Advanced src t) : Advanced src (process t n)

/-- The runner and its engine, and where the audio thread stands. -/
structure GeneratorRun (Src : Type) extends GeneratorRig Src where
  cb : CbPc

/-- What can happen next: the five calls, a device restart, a step of the audio thread, or another
feature's use of the engine. -/
inductive GeneratorAct (Src : Type)
  | start (env : GeneratorEnvironment)
  | stop (nowMs : ℚ)
  | cancel (reason : String)
  | apply (env : GeneratorEnvironment) (nowMs : ℚ) (next : GeneratorSettings)
  | poll (env : GeneratorEnvironment) (nowMs : ℚ)
  | prepare (rate : ℚ) (channels : ℤ)
  | callback (a : CbAct)
  | other (engine : OutputEngine Src)

/-- The calls of the runner. -/
def GeneratorAct.ofRunner : GeneratorAct Src → Prop
  | .start _ | .stop _ | .cancel _ | .apply _ _ _ | .poll _ _ => True
  | .prepare _ _ | .callback _ | .other _ => False

variable (alternative : GeneratorVoice → Src)

/-- The runner from its constructor on, beside an engine in any condition. A device restart waits
for the callback. -/
def generatorRuns : Machine (GeneratorRun Src) (GeneratorAct Src) where
  init s := s.runner = {} ∧ s.cb = .idle
  step s
    | .start env => some ⟨(s.toGeneratorRig.start alternative env).2, s.cb⟩
    | .stop nowMs => some ⟨s.toGeneratorRig.stop nowMs, s.cb⟩
    | .cancel reason => some ⟨s.toGeneratorRig.cancel reason, s.cb⟩
    | .apply env nowMs next => some ⟨(s.toGeneratorRig.apply env nowMs next).2, s.cb⟩
    | .poll env nowMs => some ⟨s.toGeneratorRig.poll alternative env nowMs, s.cb⟩
    | .prepare rate channels =>
      if s.cb.isIdle then some { s with engine := s.engine.prepare rate channels } else none
    | .callback a => (callbackStep s.engine true s.cb a).map fun r =>
        { s with engine := r.1, cb := r.2 }
    | .other engine => if s.runner.state = .idle then some { s with engine := engine } else none

namespace GeneratorRig

/-- The slot holds the source `makeSource` makes from the settings, some blocks into it. -/
def PlaysSettings (s : GeneratorRig Src) : Prop :=
  ∃ src, s.engine.slot = some src ∧
    Advanced (alternative (makeSource s.runner.settings s.engine.sampleRate kGeneratorNoiseSeed))
      src

/-- The runner's phase against the engine. -/
structure GeneratorInv (s : GeneratorRig Src) : Prop where
  armed : s.runner.state ≠ .idle → s.engine.armed = true → s.runner.state = .playing
  epoch : s.runner.state ≠ .idle → s.runner.armedEpoch ≤ s.engine.outputEpoch
  source : s.runner.state = .playing → s.runner.armedEpoch = s.engine.outputEpoch →
    s.PlaysSettings alternative
  routed : s.holdsRoutes → s.RoutesSettings

variable {alternative}

variable {s : GeneratorRig Src}

theorem GeneratorInv.of_idle (h : s.runner.state = .idle) :
    GeneratorInv alternative s where
  armed hne := absurd h hne
  epoch hne := absurd h hne
  source hplay := by
    rw [h] at hplay
    cases hplay
  routed hroutes := absurd h hroutes.ne_idle

/-! ### One call -/

section

variable (hs : GeneratorInv alternative s)

include hs

theorem GeneratorInv.storeSettings {next : GeneratorSettings}
    (hsame : s.runner.state = .playing → ∀ rate,
      makeSource next rate kGeneratorNoiseSeed =
        makeSource s.runner.settings rate kGeneratorNoiseSeed) :
    GeneratorInv alternative (s.storeSettings next) where
  armed := by simpa using hs.armed
  epoch := by simpa using hs.epoch
  source := by
    intro hplay hepoch
    simp only [storeSettings_runner, storeSettings_outputEpoch] at hplay hepoch
    obtain ⟨src, hslot, hadv⟩ := hs.source hplay hepoch
    refine ⟨src, by rw [storeSettings_slot, hslot], ?_⟩
    simpa only [storeSettings_runner, storeSettings_sampleRate, hsame hplay] using hadv
  routed := by
    intro h
    exact storeSettings_routesSettings hs.routed ((storeSettings_holdsRoutes next s).mp h)

omit hs in
/-- A disarmed engine keeps its routes, and nothing is promised of its slot. -/
theorem GeneratorInv.beginWait {state : GeneratorState} {nowMs : ℚ}
    (hepoch : s.runner.armedEpoch ≤ s.engine.outputEpoch) (hroutes : s.RoutesSettings)
    (hstate : state ≠ .playing) : GeneratorInv alternative (s.beginWait state nowMs) where
  armed _ ha := by cases ha
  epoch _ := hepoch
  source hplay := absurd hplay hstate
  routed _ := hroutes

omit hs in
/-- Installed, routed and armed is what the invariant asks of Playing. -/
theorem GeneratorInv.play {epoch : ℕ} (hepoch : epoch = s.engine.outputEpoch)
    (hslot : s.engine.slot = some (alternative
      (makeSource s.runner.settings s.engine.sampleRate kGeneratorNoiseSeed))) :
    GeneratorInv alternative (s.play epoch) where
  armed _ _ := rfl
  epoch _ := by
    show epoch ≤ s.routeSelected.engine.outputEpoch
    rw [routeSelected, routeEach_outputEpoch, hepoch]
  source _ _ := by
    refine ⟨_, ?_, .fresh⟩
    show s.routeSelected.engine.slot = some (alternative
      (makeSource s.runner.settings s.routeSelected.engine.sampleRate kGeneratorNoiseSeed))
    rw [routeSelected, routeEach_slot, routeEach_sampleRate, hslot]
  routed _ := s.routeSelected_role

theorem GeneratorInv.start {env : GeneratorEnvironment} :
    GeneratorInv alternative (s.start alternative env).2 := by
  rw [GeneratorRig.start]
  by_cases hidle : s.runner.state ≠ .idle
  · rw [if_pos hidle]
    exact hs
  rw [if_neg hidle]
  rw [not_not] at hidle
  split
  · exact .of_idle hidle
  split
  · exact .of_idle hidle
  dsimp only
  split
  case h_1 hinst => exact .of_idle hidle
  case h_2 engine hinst =>
    obtain ⟨hfalse, -⟩ | ⟨-, -, rfl⟩ := install_cases hinst
    · cases hfalse
    exact .play rfl rfl

omit hs in
/-- Disarming ends a run, whatever the reason. -/
theorem GeneratorInv.goIdle (reason : String) :
    GeneratorInv alternative (s.goIdle reason) := .of_idle rfl

variable {nowMs : ℚ} {env : GeneratorEnvironment}

theorem GeneratorInv.stop :
    GeneratorInv alternative (s.stop nowMs) := by
  rw [GeneratorRig.stop]
  by_cases h : s.holdsRoutes
  · rw [if_pos h]
    exact .beginWait (hs.epoch h.ne_idle) (hs.routed h) (by simp)
  · rw [if_neg h]
    exact hs

theorem GeneratorInv.cancel {reason : String} : GeneratorInv alternative (s.cancel reason) := by
  rw [GeneratorRig.cancel]
  split
  · exact hs
  · exact .goIdle _

/-- New settings are either the source that plays already, or the beginning of a swap. -/
theorem GeneratorInv.apply {next : GeneratorSettings} :
    GeneratorInv alternative (s.apply env nowMs next).2 := by
  rw [GeneratorRig.apply]
  split
  · exact hs
  dsimp only
  by_cases hswap : s.runner.state = .playing ∧
      sourceChanged s.runner.settings (requested env next) = true
  · rw [if_pos hswap]
    have hholds : s.holdsRoutes := .inl hswap.1
    exact .beginWait (by simpa using hs.epoch hholds.ne_idle)
      (storeSettings_routesSettings hs.routed hholds) (by simp)
  · rw [if_neg hswap]
    refine hs.storeSettings fun hplay rate => makeSource_of_not_sourceChanged ?_ _ _
    simpa [hplay] using hswap

/-- Once quiescent, the settings as they are by now are installed and armed. -/
theorem GeneratorInv.pollSwapping (hswap : s.runner.state = .swapping) :
    GeneratorInv alternative (s.pollSwapping alternative nowMs) := by
  rw [GeneratorRig.pollSwapping]
  dsimp only
  have hepoch := hs.epoch (by rw [hswap]; simp)
  have hroutes := hs.routed (.inr hswap)
  split
  case h_1 engine hinst =>
    split at hinst
    case isFalse => cases hinst
    case isTrue =>
      obtain ⟨hfalse, -⟩ | ⟨-, -, rfl⟩ := install_cases hinst
      · cases hfalse
      exact ⟨fun _ _ => rfl, fun _ => hepoch, fun _ _ => ⟨_, rfl, .fresh⟩, fun _ => hroutes⟩
  case h_2 =>
    split
    · exact .goIdle _
    · exact hs

/-- Waiting for the gate after a stop ends in Idle or goes on. -/
theorem GeneratorInv.pollStopping : GeneratorInv alternative (s.pollStopping nowMs) := by
  rw [GeneratorRig.pollStopping]
  split
  · exact .of_idle rfl
  split
  · exact .of_idle rfl
  · exact hs

/-- The head of `poll` moves the outputs only. -/
theorem GeneratorInv.pruneForDevice
    (env : GeneratorEnvironment) : GeneratorInv alternative (s.pruneForDevice env) := by
  rw [GeneratorRig.pruneForDevice]
  split
  · exact hs.storeSettings fun _ _ => rfl
  · exact hs

theorem GeneratorInv.poll : GeneratorInv alternative (s.poll alternative env nowMs) := by
  rw [GeneratorRig.poll, advance]
  have hpruned := hs.pruneForDevice env
  split
  · exact hpruned
  split
  · exact .goIdle _
  split
  · exact .goIdle _
  split
  case h_1 hswap => exact hpruned.pollSwapping hswap
  case h_2 => exact hpruned.pollStopping
  all_goals exact hpruned

/-! ### The device and the audio thread -/

/-- A device restart disarms and moves the epoch, which is all the invariant needs. -/
theorem GeneratorInv.prepare {rate : ℚ} {channels : ℤ} :
    GeneratorInv alternative { s with engine := s.engine.prepare rate channels } where
  armed _ ha := by cases ha
  epoch hne := Nat.le_succ_of_le (hs.epoch hne)
  source hplay hepoch := by
    have hle := hs.epoch (by rw [show s.runner.state = .playing from hplay]; simp)
    have heq : s.runner.armedEpoch = s.engine.outputEpoch + 1 := hepoch
    omega
  routed := hs.routed

/-- A block moves the source along and touches nothing else the runner set. -/
theorem GeneratorInv.callback {e' : OutputEngine Src} {cb cb' : CbPc} {a : CbAct}
    (h : CallbackStep s.engine true cb a e' cb') :
    GeneratorInv alternative { s with engine := e' } := by
  have hkeep (hc : SameControl s.engine e') (hslot : ∀ src, s.engine.slot = some src →
      ∃ n, e'.slot = some src ∨ e'.slot = some (process src n)) :
      GeneratorInv alternative { s with engine := e' } := by
    refine ⟨fun hne ha => hs.armed hne (hc.armed ▸ ha), fun hne => ?_, ?_, fun hr ch => ?_⟩
    · show s.runner.armedEpoch ≤ e'.outputEpoch
      rw [hc.outputEpoch]
      exact hs.epoch hne
    · intro hplay hepoch
      have hepoch' : s.runner.armedEpoch = e'.outputEpoch := hepoch
      obtain ⟨src, hsrc, hadv⟩ := hs.source hplay (hepoch'.trans hc.outputEpoch)
      rw [← hc.sampleRate] at hadv
      obtain ⟨n, hsame | hmoved⟩ := hslot src hsrc
      · exact ⟨src, hsame, hadv⟩
      · exact ⟨_, hmoved, hadv.rendered n⟩
    · have hrole : e'.role ch = s.engine.role ch := by rw [role, role, hc.routing]
      show e'.role ch = .routed ↔ _
      rw [hrole]
      exact hs.routed hr ch
  cases h with
  | chunk channels remaining hr =>
    exact hkeep ⟨rfl, rfl, rfl, rfl, rfl, rfl⟩ fun src hsrc =>
      ⟨_, .inr (by rw [renderChunk, hsrc]; rfl)⟩
  | _ => exact hkeep ⟨rfl, rfl, rfl, rfl, rfl, rfl⟩ fun src hsrc => ⟨0, .inl hsrc⟩

end

end GeneratorRig

/-! ### Whole runs -/

open GeneratorRig

variable {alternative}

variable {s t : GeneratorRun Src}

theorem generatorInv_step {a : GeneratorAct Src} (hs : GeneratorInv alternative s.toGeneratorRig)
    (h : (generatorRuns alternative).step s a = some t) :
    GeneratorInv alternative t.toGeneratorRig := by
  match a with
  | .start env => cases h; exact hs.start
  | .stop nowMs => cases h; exact hs.stop
  | .cancel reason => cases h; exact hs.cancel
  | .apply env nowMs next => cases h; exact hs.apply
  | .poll env nowMs => cases h; exact hs.poll
  | .prepare rate channels =>
    simp only [generatorRuns, Option.ite_none_right_eq_some] at h
    obtain ⟨-, ⟨⟩⟩ := h
    exact hs.prepare
  | .callback a =>
    obtain ⟨⟨e', cb'⟩, hcb, rfl⟩ := Option.map_eq_some_iff.mp h
    exact hs.callback (callbackStep_cases hcb)
  | .other engine =>
    simp only [generatorRuns, Option.ite_none_right_eq_some] at h
    obtain ⟨hidle, ⟨⟩⟩ := h
    exact .of_idle hidle

theorem generatorRuns_arms {a : GeneratorAct Src}
    (h : (generatorRuns alternative).step s a = some t) (ha : a.ofRunner)
    (harmed : t.engine.armed = true) : s.engine.armed = true ∨ t.runner.state = .playing := by
  match a with
  | .start env => cases h; exact start_arms harmed
  | .stop nowMs => cases h; exact .inl (stop_arms harmed)
  | .cancel reason => cases h; exact .inl (cancel_arms harmed)
  | .apply env nowMs next => cases h; exact .inl (apply_arms harmed)
  | .poll env nowMs => cases h; exact poll_arms harmed
  | .prepare _ _ | .callback _ | .other _ => exact ha.elim

variable (alternative)

/-- While the runner is Playing and the engine's epoch is the one it was started in, the slot holds
the source of the current settings and the routes are `Routes`; a call that raises the arm flag
ends in Playing, and while the runner is not Idle the flag is up in Playing only. -/
def PlaysItsSettings (Routes : GeneratorRig Src → Prop) (s : GeneratorRun Src)
    (a : GeneratorAct Src) (t : GeneratorRun Src) : Prop :=
  (t.runner.state = .playing → t.runner.armedEpoch = t.engine.outputEpoch →
    t.PlaysSettings alternative ∧ Routes t.toGeneratorRig) ∧
  (a.ofRunner → s.engine.armed = false → t.engine.armed = true → t.runner.state = .playing) ∧
  (t.runner.state ≠ .idle → t.engine.armed = true → t.runner.state = .playing)

/-- **Headline.** In every run of the runner's calls, device restarts and blocks, beside an engine
that was in any condition, the engine plays and routes what the settings say while the runner is
Playing, and the runner arms it in Playing only. -/
theorem generator_playing_faithful (engine : OutputEngine Src) (acts : List (GeneratorAct Src)) :
    (generatorRuns alternative).AlongSteps (PlaysItsSettings alternative RoutesSettings)
      ⟨⟨engine, {}⟩, .idle⟩ acts := by
  refine Machine.AlongSteps.of_preserved
    (fun s : GeneratorRun Src => GeneratorInv alternative s.toGeneratorRig) ?_
    (GeneratorInv.of_idle rfl) acts
  intro s a t hs hstep
  have ht := generatorInv_step hs hstep
  refine ⟨ht, fun hplay hepoch => ⟨ht.source hplay hepoch, ht.routed (.inl hplay)⟩, ?_, ht.armed⟩
  intro ha hdown hup
  refine (generatorRuns_arms hstep ha hup).resolve_left ?_
  rw [hdown]
  exact Bool.false_ne_true

/-! ### An output the engine does not have -/

/-- Every output of the settings is routed, and no other. -/
def RoutesEveryOutput (s : GeneratorRig Src) : Prop :=
  ∀ ch, s.engine.role ch = .routed ↔ ch ∈ s.runner.settings.outputs

/-- With the number of outputs unknown, the settings keep output 100 (the operator's 101st), and
GEN plays with nothing routed. -/
theorem generator_routes_nothing_past_table :
    ¬ ∀ (engine : OutputEngine (RatedSource GeneratorVoice))
      (acts : List (GeneratorAct (RatedSource GeneratorVoice))),
      (generatorRuns fun voice => ⟨voice, kPlaceholderSampleRate, 0⟩).AlongSteps
        (PlaysItsSettings (fun voice => ⟨voice, kPlaceholderSampleRate, 0⟩) RoutesEveryOutput)
        ⟨⟨engine, {}⟩, .idle⟩ acts := by
  intro h
  have hrun := h make
    [.apply { synthetic := true } 0 { outputs := [100] }, .start { synthetic := true }]
  have hplays := ((hrun.tail rfl).head rfl).1 rfl rfl
  exact absurd ((hplays.2 100).mpr (List.mem_singleton.mpr rfl)) (by decide)

end RtaTool
