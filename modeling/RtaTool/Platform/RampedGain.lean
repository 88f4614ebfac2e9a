import Mathlib.Data.Rat.Floor

/-!
# The click-free ramp

`gen::RampedGain` is the one ramp every start, stop and mute of the output path goes through. It is
a position between `0` (Idle) and `rampLenSamples` (Running) and a direction; the control thread
only ever flips the target.

The gain itself is half a raised cosine of `pos / rampLenSamples`. The cosine is not modelled: what
the engine around it branches on is `state()`, and the curve is a function of the phase alone, so
`nextGain` returns the phase it was evaluated at.

The four fields at the end of the record are the invariant the C++ keeps by construction: a ramp
that is Idle stands at `0`, one that is Running stands at the top, and no other position has those
names. They are what makes `state() == Idle` mean "silent".

## Main definitions

* `RampedGain` -- the ramp, with its invariant
* `RampedGain.nextGain`, `RampedGain.advance` -- one sample, and a block of them
* `RampedGain.prepare` -- the device thread's retarget to a new rate

## Main results

* `RampedGain.advance_pos_on`, `RampedGain.advance_pos_off` -- the position after a block
-/

namespace RtaTool

/-- `RampedGain::State`. -/
inductive RampState
  | idle
  | rising
  | running
  | falling
  deriving DecidableEq, Repr

/-- `gen::RampedGain`. `target` is the only word the control thread writes. -/
structure RampedGain where
  target : Bool
  rampLenSamples : ℕ
  pos : ℕ
  state : RampState
  rampSeconds : ℚ
  rampLen_pos : 0 < rampLenSamples
  pos_le : pos ≤ rampLenSamples
  idle_iff : state = .idle ↔ pos = 0
  running_iff : state = .running ↔ pos = rampLenSamples

namespace RampedGain

/-- `max(1, (int)lround(sampleRate * rampSeconds))`: a ramp is never shorter than one sample. -/
def rampLenFor (sampleRate rampSeconds : ℚ) : ℕ :=
  max 1 (round (sampleRate * rampSeconds)).toNat

theorem rampLenFor_pos (sampleRate rampSeconds : ℚ) : 0 < rampLenFor sampleRate rampSeconds :=
  Nat.lt_of_lt_of_le Nat.one_pos (le_max_left _ _)

/-- A ramp standing at `Idle`, as the constructor leaves it and as `prepare` resets it. -/
def idleAt (target : Bool) (sampleRate rampSeconds : ℚ) : RampedGain where
  target := target
  rampLenSamples := rampLenFor sampleRate rampSeconds
  pos := 0
  state := .idle
  rampSeconds := rampSeconds
  rampLen_pos := rampLenFor_pos sampleRate rampSeconds
  pos_le := Nat.zero_le _
  idle_iff := by simp
  running_iff := by
    have := rampLenFor_pos sampleRate rampSeconds
    simp only [reduceCtorEq, false_iff]
    omega

/-- The constructor, at the default ramp of 10 ms. -/
def make (sampleRate : ℚ) : RampedGain := idleAt false sampleRate (1 / 100)

/-- `requestOn` / `requestOff`: the control thread's store to `target_`. -/
def request (g : RampedGain) (target : Bool) : RampedGain := { g with target := target }

/-- `prepare(sampleRate)`: back to `Idle` at the new length. The target is left alone on purpose,
since the control thread may have published a request before the device restarted. -/
def prepare (g : RampedGain) (sampleRate : ℚ) : RampedGain :=
  idleAt g.target sampleRate g.rampSeconds

/-- The direction the coming sample moves in: a target change only flips which way `pos` goes. -/
def direction (g : RampedGain) : RampState :=
  match g.target, g.state with
  | true, .idle => .rising
  | true, .falling => .rising
  | false, .running => .falling
  | false, .rising => .falling
  | _, s => s

variable {g : RampedGain}

theorem direction_of_on (h : g.target = true) :
    g.direction = if g.pos = g.rampLenSamples then .running else .rising := by
  have hrun := g.running_iff
  rw [direction, h]
  cases hs : g.state <;> simp_all

theorem direction_of_off (h : g.target = false) :
    g.direction = if g.pos = 0 then .idle else .falling := by
  have hidle := g.idle_iff
  rw [direction, h]
  cases hs : g.state <;> simp_all

/-- The phase the raised cosine is evaluated at: `0` is silence, `1` is full gain. -/
def phase (g : RampedGain) : ℚ :=
  match g.direction with
  | .idle => 0
  | .running => 1
  | .rising | .falling => (g.pos : ℚ) / g.rampLenSamples

/-- The position after the coming sample. -/
def nextPos (g : RampedGain) : ℕ :=
  match g.direction with
  | .rising => if g.pos < g.rampLenSamples then g.pos + 1 else g.pos
  | .falling => g.pos - 1
  | .idle | .running => g.pos

/-- The state after the coming sample. -/
def nextState (g : RampedGain) : RampState :=
  match g.direction with
  | .rising => if g.rampLenSamples ≤ g.nextPos then .running else .rising
  | .falling => if g.nextPos ≤ 0 then .idle else .falling
  | .idle => .idle
  | .running => .running

theorem nextPos_of_on (h : g.target = true) :
    g.nextPos = min (g.pos + 1) g.rampLenSamples := by
  have hle := g.pos_le
  rw [nextPos, direction_of_on h]
  by_cases hp : g.pos = g.rampLenSamples
  · simp [hp]
  · have hlt : g.pos < g.rampLenSamples := by omega
    simp only [hp, if_false, hlt, if_true]
    omega

theorem nextPos_of_off (h : g.target = false) : g.nextPos = g.pos - 1 := by
  rw [nextPos, direction_of_off h]
  by_cases hp : g.pos = 0
  · simp [hp]
  · simp [hp]

/-- `nextGain`: the phase of the gain that is applied, and the ramp one sample on. -/
def nextGain (g : RampedGain) : ℚ × RampedGain :=
  (g.phase,
    { g with
      pos := g.nextPos
      state := g.nextState
      pos_le := by
        have hle := g.pos_le
        cases ht : g.target with
        | true => rw [nextPos_of_on ht]; exact min_le_right _ _
        | false => rw [nextPos_of_off ht]; omega
      idle_iff := by
        have hpos := g.rampLen_pos
        cases ht : g.target with
        | true =>
          rw [nextState, direction_of_on ht, nextPos_of_on ht]
          by_cases hp : g.pos = g.rampLenSamples
          · simp [hp]
            omega
          · simp only [hp, if_false]
            split <;> simp <;> omega
        | false =>
          rw [nextState, direction_of_off ht, nextPos_of_off ht]
          by_cases hp : g.pos = 0
          · simp [hp]
          · simp only [hp, if_false]
            split <;> simp <;> omega
      running_iff := by
        have hpos := g.rampLen_pos
        have hle := g.pos_le
        cases ht : g.target with
        | true =>
          rw [nextState, direction_of_on ht, nextPos_of_on ht]
          by_cases hp : g.pos = g.rampLenSamples
          · simp [hp]
          · simp only [hp, if_false]
            split <;> simp <;> omega
        | false =>
          rw [nextState, direction_of_off ht, nextPos_of_off ht]
          by_cases hp : g.pos = 0
          · simp [hp]
            omega
          · simp only [hp, if_false]
            split <;> simp <;> omega })

/-- `n` samples of `nextGain`, which is what `apply` and the per-output loops do to the ramp. -/
def advance (g : RampedGain) : ℕ → RampedGain
  | 0 => g
  | n + 1 => g.nextGain.2.advance n

section

variable (g : RampedGain)

@[simp] theorem advance_zero : g.advance 0 = g := rfl

@[simp] theorem request_state (b : Bool) : (g.request b).state = g.state := rfl

@[simp] theorem request_target (b : Bool) : (g.request b).target = b := rfl

@[simp] theorem prepare_state (rate : ℚ) : (g.prepare rate).state = .idle := rfl

@[simp] theorem prepare_target (rate : ℚ) :
    (g.prepare rate).target = g.target := rfl

@[simp] theorem make_state (rate : ℚ) : (make rate).state = .idle := rfl

/-! ### A block of samples -/

@[simp] theorem advance_target (n : ℕ) : (g.advance n).target = g.target := by
  induction n generalizing g with
  | zero => rfl
  | succ n ih => rw [advance, ih]; rfl

@[simp] theorem advance_rampLenSamples (n : ℕ) :
    (g.advance n).rampLenSamples = g.rampLenSamples := by
  induction n generalizing g with
  | zero => rfl
  | succ n ih => rw [advance, ih]; rfl

end

/-- A ramp that is wanted on climbs one position a sample and stops at the top. -/
theorem advance_pos_on (h : g.target = true) (n : ℕ) :
    (g.advance n).pos = min (g.pos + n) g.rampLenSamples := by
  induction n generalizing g with
  | zero => have := g.pos_le; simp [this]
  | succ n ih =>
    rw [advance, ih (by exact h)]
    change min (g.nextPos + n) g.rampLenSamples = _
    rw [nextPos_of_on h]
    omega

/-- A ramp that is wanted off descends one position a sample and stops at silence. -/
theorem advance_pos_off (h : g.target = false) (n : ℕ) :
    (g.advance n).pos = g.pos - n := by
  induction n generalizing g with
  | zero => rfl
  | succ n ih =>
    rw [advance, ih (by exact h)]
    change g.nextPos - n = _
    rw [nextPos_of_off h]
    omega

end RampedGain

end RtaTool
