import RtaTool.Platform.OutputEngine

/-!
# Output policy

Strict solo is not an engine call: it is a loop over `routeOutput`, one call for each of the
`kMaxChannels` outputs. `OutputPolicy.h` holds the loops every feature uses, and no other code
touches a gate. All of them route each output by a predicate on the channel number, so they are
one fold here and what they do to the roles is one lemma.

## Main definitions

* `routeEach` -- one `routeOutput` call for each output
* `muteAll`, `soloOutput`, `routeOutputSet`, `applyToggle` -- the policies

## Main results

* `routeEach_role` -- the role of every channel afterwards
* `routeEach_frame` -- a policy moves the role and gate tables and nothing else
-/

namespace RtaTool

namespace OutputEngine

variable {Src : Type}

/-- `SoloMode`. -/
inductive SoloMode
  | strictSolo
  | additive
  deriving DecidableEq, Repr

/-- The loop `for (ch = 0; ch < n; ++ch) routeOutput(ch, active(ch))`. -/
def routeFirst (active : ℤ → Bool) (e : OutputEngine Src) : ℕ → OutputEngine Src
  | 0 => e
  | n + 1 => ((routeFirst active e n).routeOutput n (active n)).2

/-- One `routeOutput` call for each output, in order. -/
def routeEach (active : ℤ → Bool) (e : OutputEngine Src) : OutputEngine Src :=
  routeFirst active e kMaxChannels

/-- `muteAll(engine)`. -/
def muteAll (e : OutputEngine Src) : OutputEngine Src := e.routeEach fun _ => false

/-- `soloOutput(engine, outputChannel)`. -/
def soloOutput (e : OutputEngine Src) (outputChannel : ℤ) : OutputEngine Src :=
  e.routeEach fun ch => ch == outputChannel

/-- `routeOutputSet(engine, outputs)`. -/
def routeOutputSet (e : OutputEngine Src) (outputs : List ℤ) : OutputEngine Src :=
  e.routeEach fun ch => outputs.contains ch

/-- `applyToggle(engine, outputChannel, on, mode)`. -/
def applyToggle (e : OutputEngine Src) (outputChannel : ℤ) (on : Bool) (mode : SoloMode) :
    OutputEngine Src :=
  if mode = .strictSolo ∧ on = true then e.soloOutput outputChannel
  else (e.routeOutput outputChannel on).2

section

variable (active : ℤ → Bool) (e : OutputEngine Src)

theorem routeFirst_role (ch : ℤ) :
    ∀ n ≤ kMaxChannels, (routeFirst active e n).role ch =
      if 0 ≤ ch ∧ ch < n then roleOf (active ch) else e.role ch := by
  intro n
  induction n with
  | zero =>
    intro _
    have hnot : ¬ (0 ≤ ch ∧ ch < (0 : ℕ)) := by omega
    rw [routeFirst, if_neg hnot]
  | succ n ih =>
    intro hn
    have hrange : inRange (n : ℤ) := ⟨by omega, by omega⟩
    rw [routeFirst, routeOutput_role, ih (by omega)]
    by_cases hch : ch = n
    · have hlt : 0 ≤ ch ∧ ch < (n + 1 : ℕ) := by omega
      rw [if_pos ⟨hch, hrange⟩, if_pos hlt, hch]
    · have hiff : (0 ≤ ch ∧ ch < (n + 1 : ℕ)) ↔ (0 ≤ ch ∧ ch < (n : ℕ)) := by omega
      rw [if_neg fun h => hch h.1]
      simp only [hiff]

/-- After a policy loop each channel's role is what the predicate says; channels outside
`[0, kMaxChannels)` have none. -/
theorem routeEach_role (ch : ℤ) :
    (e.routeEach active).role ch = if inRange ch then roleOf (active ch) else .none := by
  rw [routeEach, routeFirst_role active e ch _ le_rfl]
  show (if inRange ch then roleOf (active ch) else e.role ch) = _
  by_cases h : inRange ch
  · rw [if_pos h, if_pos h]
  · rw [if_neg h, if_neg h, role, if_neg h]

theorem routeFirst_frame (n : ℕ) :
    routeFirst active e n =
      { e with
        routing := (routeFirst active e n).routing
        outputGates := (routeFirst active e n).outputGates } := by
  induction n with
  | zero => rfl
  | succ n ih =>
    rw [routeFirst, routeOutput_frame, ih]

theorem routeEach_frame :
    e.routeEach active =
      { e with
        routing := (e.routeEach active).routing
        outputGates := (e.routeEach active).outputGates } :=
  routeFirst_frame active e kMaxChannels

@[simp] theorem routeEach_armed :
    (e.routeEach active).armed = e.armed := by
  rw [routeEach_frame]

@[simp] theorem routeEach_renderedSamples :
    (e.routeEach active).renderedSamples = e.renderedSamples := by
  rw [routeEach_frame]

@[simp] theorem routeEach_slot :
    (e.routeEach active).slot = e.slot := by
  rw [routeEach_frame]

@[simp] theorem routeEach_slotEpoch :
    (e.routeEach active).slotEpoch = e.slotEpoch := by
  rw [routeEach_frame]

@[simp] theorem routeEach_outputEpoch :
    (e.routeEach active).outputEpoch = e.outputEpoch := by
  rw [routeEach_frame]

@[simp] theorem routeEach_sampleRate :
    (e.routeEach active).sampleRate = e.sampleRate := by
  rw [routeEach_frame]

end

@[simp] theorem soloOutput_armed (e : OutputEngine Src) (ch : ℤ) :
    (e.soloOutput ch).armed = e.armed := routeEach_armed _ e

@[simp] theorem soloOutput_renderedSamples (e : OutputEngine Src) (ch : ℤ) :
    (e.soloOutput ch).renderedSamples = e.renderedSamples := routeEach_renderedSamples _ e

end OutputEngine

end RtaTool
