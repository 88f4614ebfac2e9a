import RtaTool.Measure.GeneratorModel
import RtaTool.Measure.OutputPolicy

/-!
# The generator's runner

`GeneratorRunner` plays the operator's signal through an `OutputEngine` it does not own. A level or
signal change is a *swap*: disarm, wait for the gate to fall, install, arm. The wait is not a loop;
`poll` looks again each time it is called, so stop, cancel and further settings can arrive in any
phase.

The runner never arms by itself. A device restart, a stopped device or a cancel leaves it Idle with
a reason, and only `start` leads out of Idle.

What the application knows and the runner does not arrives as a `GeneratorEnvironment`, read once at
the head of each call. The sources the engine can hold are a parameter: `alternative` makes the
generator's own alternatives into one.

## Main definitions

* `GeneratorRunner`, `GeneratorRig` -- the runner's fields, and the engine beside them
* `start`, `stop`, `cancel`, `apply`, `poll` -- its calls
* `RoutesSettings` -- what is routed is what the settings say

## Main results

* `install_cases` -- an attempt to install leaves the slot alone or puts the settings' source there
* `routeSelected_role` -- the roles afterwards are the settings' outputs
* `start_arms`, `poll_arms` -- a call that leaves the engine armed found it so or ends in Playing
-/

namespace RtaTool

open OutputEngine

/-- `GeneratorState`. -/
inductive GeneratorState
  | idle
  | playing
  | swapping
  | stopping
  deriving DecidableEq, Repr

/-- `GeneratorRefusal`. -/
inductive GeneratorRefusal
  | none
  | alreadyRunning
  | busy
  | noDevice
  | engineNotQuiescent
  | lastOutput
  deriving DecidableEq, Repr

/-- `GeneratorEnvironment`. `numOutputs = 0` is "unknown". -/
structure GeneratorEnvironment where
  synthetic : Bool := false
  deviceRunning : Bool := false
  numOutputs : ℤ := 0
  busyBy : String := ""
  deriving DecidableEq, Repr

/-- `kGeneratorStopTimeoutMs`. -/
def kGeneratorStopTimeoutMs : ℚ := 500

/-- `GeneratorRunner`'s own fields. -/
structure GeneratorRunner where
  settings : GeneratorSettings := {}
  state : GeneratorState := .idle
  armedEpoch : ℕ := 0
  waitStartMs : ℚ := 0
  reason : String := ""

/-- The runner and the engine it borrows. -/
structure GeneratorRig (Src : Type) where
  engine : OutputEngine Src
  runner : GeneratorRunner

namespace GeneratorRig

variable {Src : Type}

/-- Playing or Swapping: the states in which a change of outputs is live. -/
def holdsRoutes (s : GeneratorRig Src) : Prop :=
  s.runner.state = .playing ∨ s.runner.state = .swapping

instance (s : GeneratorRig Src) : Decidable s.holdsRoutes := inferInstanceAs (Decidable (_ ∨ _))

/-! ### The calls -/

/-- `routeSelected()`: additive, each output on its own. -/
def routeSelected (s : GeneratorRig Src) : GeneratorRig Src :=
  { s with engine := s.engine.routeEach fun ch => s.runner.settings.outputs.contains ch }

/-- `goIdle(reason)`. -/
def goIdle (reason : String) (s : GeneratorRig Src) : GeneratorRig Src where
  engine := s.engine.disarmSource
  runner := { s.runner with state := .idle, reason := reason }

/-- `engine_.setSource(makeSource(settings_, engine_.sampleRate(), kGeneratorNoiseSeed))`. -/
def install (alternative : GeneratorVoice → Src) (s : GeneratorRig Src) :
    Bool × OutputEngine Src :=
  s.engine.setSource
    (some (alternative (makeSource s.runner.settings s.engine.sampleRate kGeneratorNoiseSeed)))

/-- The end of `start`, once the source is in the slot: route, arm, Playing. -/
def play (epoch : ℕ) (s : GeneratorRig Src) : GeneratorRig Src where
  engine := s.routeSelected.engine.armSource
  runner := { s.runner with armedEpoch := epoch, state := .playing, reason := "" }

/-- `settings_.outputs = outputs`. -/
def setOutputs (outputs : List ℤ) (s : GeneratorRig Src) : GeneratorRig Src :=
  { s with runner := { s.runner with settings := { s.runner.settings with outputs := outputs } } }

/-- `reason_ = reason`. -/
def setReason (reason : String) (s : GeneratorRig Src) : GeneratorRig Src :=
  { s with runner := { s.runner with reason := reason } }

/-- `start()`: the refusals in their order, then `setSource` first and its answer the last one. -/
def start (alternative : GeneratorVoice → Src) (env : GeneratorEnvironment)
    (s : GeneratorRig Src) : GeneratorRefusal × GeneratorRig Src :=
  if s.runner.state ≠ .idle then (.alreadyRunning, s)
  else if env.busyBy ≠ "" then
    (.busy, s.setReason ("refused (" ++ env.busyBy ++ " is running)"))
  else if !env.synthetic && !env.deviceRunning then
    (.noDevice, s.setReason "refused (no audio device running)")
  else
    let pruned := s.setOutputs (pruneOutputs s.runner.settings.outputs env.numOutputs)
    match pruned.install alternative with
    | (false, _) => (.engineNotQuiescent, pruned.setReason "refused (output engine busy)")
    | (true, engine) => (.none, play s.engine.outputEpoch { pruned with engine := engine })

/-- The disarm that begins a wait for the gate. -/
def beginWait (state : GeneratorState) (nowMs : ℚ) (s : GeneratorRig Src) : GeneratorRig Src where
  engine := s.engine.disarmSource
  runner := { s.runner with state := state, waitStartMs := nowMs }

/-- `stop()`. -/
def stop (nowMs : ℚ) (s : GeneratorRig Src) : GeneratorRig Src :=
  if s.holdsRoutes then s.beginWait .stopping nowMs else s

/-- `cancel(reason)`. -/
def cancel (reason : String) (s : GeneratorRig Src) : GeneratorRig Src :=
  if s.runner.state = .idle then s else s.goIdle ("stopped (" ++ reason ++ ")")

/-- What `apply` stores: the level clamped and the outputs pruned. -/
def requested (env : GeneratorEnvironment) (next : GeneratorSettings) : GeneratorSettings :=
  { next with
    levelDb := clampGeneratorLevelDb next.levelDb
    outputs := pruneOutputs next.outputs env.numOutputs }

/-- `settings_ = next`, and `if (outputsChanged) routeSelected()` where the outputs are live. -/
def storeSettings (next : GeneratorSettings) (s : GeneratorRig Src) : GeneratorRig Src :=
  let stored : GeneratorRig Src := { s with runner := { s.runner with settings := next } }
  if s.holdsRoutes ∧ next.outputs ≠ s.runner.settings.outputs then stored.routeSelected else stored

/-- `apply(next)`. -/
def apply (env : GeneratorEnvironment) (nowMs : ℚ) (next : GeneratorSettings)
    (s : GeneratorRig Src) : GeneratorRefusal × GeneratorRig Src :=
  if next.outputs = [] then (.lastOutput, s)
  else
    let next := requested env next
    let stored := s.storeSettings next
    (.none,
      if s.runner.state = .playing ∧ sourceChanged s.runner.settings next = true then
        stored.beginWait .swapping nowMs
      else stored)

/-- The head of `poll`: the device may have fewer outputs than it had. -/
def pruneForDevice (env : GeneratorEnvironment) (s : GeneratorRig Src) : GeneratorRig Src :=
  if env.numOutputs > 0 then
    s.storeSettings { s.runner.settings with
      outputs := pruneOutputs s.runner.settings.outputs env.numOutputs }
  else s

/-- Whether a wait for the gate has gone on too long. -/
def timedOut (nowMs : ℚ) (s : GeneratorRig Src) : Bool :=
  decide (nowMs - s.runner.waitStartMs ≥ kGeneratorStopTimeoutMs)

/-- `poll`, Swapping: install and arm once quiescent, or give up. -/
def pollSwapping (alternative : GeneratorVoice → Src) (nowMs : ℚ) (s : GeneratorRig Src) :
    GeneratorRig Src :=
  let installed := if s.engine.sourceIsQuiescent then s.install alternative else (false, s.engine)
  match installed with
  | (true, engine) => ⟨engine.armSource, { s.runner with state := .playing }⟩
  | (false, _) => if s.timedOut nowMs then s.goIdle "stopped (output did not settle)" else s

/-- `poll`, Stopping: Idle once quiescent, or Idle with a reason. -/
def pollStopping (nowMs : ℚ) (s : GeneratorRig Src) : GeneratorRig Src :=
  if s.engine.sourceIsQuiescent then
    { s with runner := { s.runner with state := .idle, reason := "" } }
  else if s.timedOut nowMs then
    { s with
      runner := { s.runner with
        state := .idle
        reason := "stopped (no audio callback; output not confirmed silent)" } }
  else s

/-- `poll` after its head: a device restart and a stopped device end the run, then the two waits
are looked at. -/
def advance (alternative : GeneratorVoice → Src) (env : GeneratorEnvironment) (nowMs : ℚ)
    (s : GeneratorRig Src) : GeneratorRig Src :=
  if s.runner.state = .idle then s
  else if s.engine.outputEpoch ≠ s.runner.armedEpoch then
    s.goIdle "stopped (audio device restarted)"
  else if (!env.synthetic && !env.deviceRunning) = true ∧ s.holdsRoutes then
    s.goIdle "stopped (audio device stopped)"
  else
    match s.runner.state with
    | .swapping => s.pollSwapping alternative nowMs
    | .stopping => s.pollStopping nowMs
    | .idle | .playing => s

/-- `poll()`. -/
def poll (alternative : GeneratorVoice → Src) (env : GeneratorEnvironment) (nowMs : ℚ)
    (s : GeneratorRig Src) : GeneratorRig Src :=
  (s.pruneForDevice env).advance alternative env nowMs

/-! ### What the calls leave alone -/

theorem routeSelected_role (s : GeneratorRig Src) (ch : ℤ) :
    s.routeSelected.engine.role ch = .routed ↔ inRange ch ∧ ch ∈ s.runner.settings.outputs := by
  rw [routeSelected, routeEach_role]
  by_cases hr : inRange ch <;> by_cases hc : ch ∈ s.runner.settings.outputs <;>
    simp [hr, hc, roleOf]

/-- Installing is refused and changes nothing, or it finds the engine disarmed and puts the
settings' source into the slot. -/
theorem install_cases {alternative : GeneratorVoice → Src} {s : GeneratorRig Src} {ok : Bool}
    {engine : OutputEngine Src} (h : s.install alternative = (ok, engine)) :
    (ok = false ∧ engine = s.engine) ∨
      (ok = true ∧ s.engine.armed = false ∧
        engine = { s.engine with
          slot := some (alternative
            (makeSource s.runner.settings s.engine.sampleRate kGeneratorNoiseSeed))
          slotEpoch := s.engine.outputEpoch }) := by
  rw [install, setSource_eq] at h
  split at h
  case isTrue hq =>
    cases h
    exact .inr ⟨rfl, hq.2, rfl⟩
  case isFalse =>
    cases h
    exact .inl ⟨rfl, rfl⟩

section

variable (next : GeneratorSettings) (s : GeneratorRig Src)

@[simp] theorem storeSettings_runner :
    (s.storeSettings next).runner = { s.runner with settings := next } := by
  rw [storeSettings]
  split <;> rfl

@[simp] theorem storeSettings_armed :
    (s.storeSettings next).engine.armed = s.engine.armed := by
  rw [storeSettings]
  split
  · exact routeEach_armed _ _
  · rfl

@[simp] theorem storeSettings_slot :
    (s.storeSettings next).engine.slot = s.engine.slot := by
  rw [storeSettings]
  split
  · exact routeEach_slot _ _
  · rfl

@[simp] theorem storeSettings_outputEpoch :
    (s.storeSettings next).engine.outputEpoch = s.engine.outputEpoch := by
  rw [storeSettings]
  split
  · exact routeEach_outputEpoch _ _
  · rfl

@[simp] theorem storeSettings_sampleRate :
    (s.storeSettings next).engine.sampleRate = s.engine.sampleRate := by
  rw [storeSettings]
  split
  · exact routeEach_sampleRate _ _
  · rfl

@[simp] theorem storeSettings_holdsRoutes :
    (s.storeSettings next).holdsRoutes ↔ s.holdsRoutes := by
  rw [holdsRoutes, storeSettings_runner]
  rfl

end

theorem holdsRoutes.ne_idle {s : GeneratorRig Src} (h : s.holdsRoutes) :
    s.runner.state ≠ .idle := by
  intro hidle
  rcases h with hplay | hswap
  · rw [hidle] at hplay
    cases hplay
  · rw [hidle] at hswap
    cases hswap

/-! ### Routes -/

/-- The engine routes the settings' outputs that it has, and nothing else. -/
def RoutesSettings (s : GeneratorRig Src) : Prop :=
  ∀ ch, s.engine.role ch = .routed ↔ inRange ch ∧ ch ∈ s.runner.settings.outputs

/-- A change of outputs is routed at once where the outputs are live. -/
theorem storeSettings_routesSettings {next : GeneratorSettings} {s : GeneratorRig Src}
    (hs : s.holdsRoutes → s.RoutesSettings) (h : s.holdsRoutes) :
    (s.storeSettings next).RoutesSettings := by
  intro ch
  rw [storeSettings]
  by_cases hout : next.outputs ≠ s.runner.settings.outputs
  · rw [if_pos ⟨h, hout⟩]
    exact routeSelected_role _ ch
  · rw [if_neg fun hc => hout hc.2]
    rw [not_not] at hout
    show s.engine.role ch = .routed ↔ inRange ch ∧ ch ∈ next.outputs
    rw [hout]
    exact hs h ch

/-! ### Who arms -/

section Arming

variable {alternative : GeneratorVoice → Src} {s : GeneratorRig Src}

variable {env : GeneratorEnvironment} {nowMs : ℚ}

theorem start_arms (h : (s.start alternative env).2.engine.armed = true) :
    s.engine.armed = true ∨ (s.start alternative env).2.runner.state = .playing := by
  revert h
  rw [GeneratorRig.start]
  split
  · exact .inl
  split
  · exact .inl
  split
  · exact .inl
  dsimp only
  split
  · exact .inl
  · exact fun _ => .inr rfl

theorem stop_arms (h : (s.stop nowMs).engine.armed = true) :
    s.engine.armed = true := by
  revert h
  rw [GeneratorRig.stop]
  split
  · exact fun h => absurd h Bool.false_ne_true
  · exact id

theorem cancel_arms {reason : String} (h : (s.cancel reason).engine.armed = true) :
    s.engine.armed = true := by
  revert h
  rw [GeneratorRig.cancel]
  split
  · exact id
  · exact fun h => absurd h Bool.false_ne_true

theorem apply_arms {next : GeneratorSettings}
    (h : (s.apply env nowMs next).2.engine.armed = true) : s.engine.armed = true := by
  revert h
  rw [GeneratorRig.apply]
  split
  · exact id
  dsimp only
  split
  · exact fun h => absurd h Bool.false_ne_true
  · rw [storeSettings_armed]
    exact id

theorem pruneForDevice_armed (env : GeneratorEnvironment) :
    (s.pruneForDevice env).engine.armed = s.engine.armed := by
  rw [GeneratorRig.pruneForDevice]
  split
  · exact storeSettings_armed _ s
  · rfl

theorem poll_arms (h : (s.poll alternative env nowMs).engine.armed = true) :
    s.engine.armed = true ∨ (s.poll alternative env nowMs).runner.state = .playing := by
  revert h
  rw [GeneratorRig.poll, ← pruneForDevice_armed (s := s) env]
  generalize s.pruneForDevice env = p
  rw [advance]
  have hdown (reason : String) (h : (p.goIdle reason).engine.armed = true) :
      p.engine.armed = true ∨ (p.goIdle reason).runner.state = .playing :=
    absurd h Bool.false_ne_true
  split
  · exact .inl
  split
  · exact hdown _
  split
  · exact hdown _
  split
  case h_1 =>
    rw [GeneratorRig.pollSwapping]
    dsimp only
    split
    · exact fun _ => .inr rfl
    · split
      · exact hdown _
      · exact .inl
  case h_2 =>
    rw [GeneratorRig.pollStopping]
    split
    · exact .inl
    · split <;> exact .inl
  all_goals exact .inl

end Arming

end GeneratorRig

end RtaTool
