import RtaTool.Lib.Numerals
import RtaTool.Platform.RampedGain
import Mathlib.Analysis.SpecialFunctions.Trigonometric.Bounds

/-!
# The calls of a click-free ramp

`gen::RampedGain` as its words: a target, a length, a position and a state, and nothing that says
how they fit. Every order of the calls keeps them in step with a `RampedGain`, whose fields say it
(`run_words`). So the position is between the ends, the state names the ends and nothing else, and
what a sample is multiplied by is half a raised cosine at the position it began from.

## Main definitions

* `RampWords` -- the words, and `RampWords.nextGain` as the source has it
* `RampCall`, `RampWords.run` -- the calls, in any order
* `rampShape` -- half a raised cosine

## Main results

* `nextGain_words` -- one sample of the words is one sample of the ramp
* `rampShape_step` -- one position is a step of the gain of at most `π / 2` over the length
* `rampWords_run` -- **Headline.** Every order of the calls
-/

namespace RtaTool

/-! ### The words -/

/-- The words of `gen::RampedGain`. -/
structure RampWords where
  target : Bool := false
  rampLenSamples : ℤ
  pos : ℤ := 0
  state : RampState := .idle
  rampSeconds : ℚ

/-- `0.5 * (1 - cos(pi * p))`. -/
noncomputable def rampShape (p : ℝ) : ℝ := 0.5 * (1 - Real.cos (Real.pi * p))

/-- A call of the ramp. -/
inductive RampCall
  | requestOn
  | requestOff
  | prepare (sampleRate : ℚ)
  | nextGain
  deriving DecidableEq

/-- The request that leaves a target as it is. -/
def RampCall.again (target : Bool) : RampCall := if target then .requestOn else .requestOff

namespace RampWords

/-- `RampedGain(sampleRate, rampSeconds)`. -/
def construct (sampleRate rampSeconds : ℚ) : RampWords where
  rampLenSamples := RampedGain.rampLenFor sampleRate rampSeconds
  rampSeconds := rampSeconds

/-- The state that `nextGain` works in, once it has seen the target. -/
def turned (w : RampWords) : RampState :=
  if w.target && (w.state = .idle || w.state = .falling) then .rising
  else if !w.target && (w.state = .running || w.state = .rising) then .falling
  else w.state

/-- The gain that `nextGain` returns. -/
noncomputable def gain (w : RampWords) : ℝ :=
  match w.turned with
  | .idle => 0
  | .running => 1
  | .rising | .falling => rampShape (w.pos / w.rampLenSamples)

/-- What `nextGain` leaves. -/
def moved (w : RampWords) : RampWords :=
  match w.turned with
  | .rising =>
    let pos := if w.pos < w.rampLenSamples then w.pos + 1 else w.pos
    { w with pos := pos, state := if w.rampLenSamples ≤ pos then .running else .rising }
  | .falling =>
    let pos := if 0 < w.pos then w.pos - 1 else w.pos
    { w with pos := pos, state := if pos ≤ 0 then .idle else .falling }
  | state => { w with state := state }

/-- `nextGain()`. -/
noncomputable def nextGain (w : RampWords) : ℝ × RampWords := (w.gain, w.moved)

/-- What a call leaves. -/
def call (w : RampWords) : RampCall → RampWords
  | .requestOn => { w with target := true }
  | .requestOff => { w with target := false }
  | .prepare sampleRate =>
    { w with
      rampLenSamples := RampedGain.rampLenFor sampleRate w.rampSeconds
      pos := 0
      state := .idle }
  | .nextGain => w.moved

/-- What calls one after another leave. -/
def run (w : RampWords) (calls : List RampCall) : RampWords := calls.foldl call w

end RampWords

/-! ### The shape -/

@[simp] theorem rampShape_zero : rampShape 0 = 0 := by simp [rampShape]

@[simp] theorem rampShape_one : rampShape 1 = 1 := by
  rw [rampShape, mul_one, Real.cos_pi]
  norm_num

/-- One position is a step of the gain of at most `π / 2` over the length. -/
theorem rampShape_step {p q : ℤ} {len : ℕ} (h : |q - p| ≤ 1) :
    |rampShape ((q : ℝ) / len) - rampShape ((p : ℝ) / len)| ≤ Real.pi / (2 * len) := by
  have hstep : |(q : ℝ) - p| ≤ 1 := by exact_mod_cast h
  have hcos := Real.abs_cos_sub_cos_le (Real.pi * ((p : ℝ) / len)) (Real.pi * ((q : ℝ) / len))
  have hangle : Real.pi * ((p : ℝ) / len) - Real.pi * ((q : ℝ) / len) =
      Real.pi / len * -(q - p) := by ring
  have hlen : (0 : ℝ) ≤ Real.pi / len := by positivity
  calc |rampShape ((q : ℝ) / len) - rampShape ((p : ℝ) / len)|
      = |0.5 * (Real.cos (Real.pi * ((p : ℝ) / len)) - Real.cos (Real.pi * ((q : ℝ) / len)))| := by
        rw [rampShape, rampShape]
        congr 1
        ring
    _ = 0.5 * |Real.cos (Real.pi * ((p : ℝ) / len)) - Real.cos (Real.pi * ((q : ℝ) / len))| := by
        rw [abs_mul, abs_of_pos (by norm_num)]
    _ ≤ 0.5 * (Real.pi / len * |(q : ℝ) - p|) := by
        rw [hangle, abs_mul, abs_neg, abs_of_nonneg hlen] at hcos
        linarith
    _ ≤ 0.5 * (Real.pi / len * 1) := by gcongr
    _ = Real.pi / (2 * len) := by ring

/-! ### The words are those of a ramp -/

/-- The words of a ramp. -/
def RampedGain.words (g : RampedGain) : RampWords where
  target := g.target
  rampLenSamples := g.rampLenSamples
  pos := g.pos
  state := g.state
  rampSeconds := g.rampSeconds

namespace RampedGain

section

variable (g : RampedGain)

theorem turned_words : g.words.turned = g.direction := by
  rw [RampWords.turned, direction, words]
  cases g.target <;> cases g.state <;> rfl

/-- One sample of the words is one sample of the ramp. -/
theorem moved_words : g.words.moved = g.nextGain.2.words := by
  have hstep : g.nextGain.2.words =
      { g.words with pos := g.nextPos, state := g.nextState } := rfl
  rw [hstep, RampWords.moved, turned_words, nextState, nextPos]
  cases g.direction with
  | idle => rfl
  | running => rfl
  | rising =>
    by_cases hlt : g.pos < g.rampLenSamples
    · simp [words, hlt]
      norm_cast
    · simp [words, hlt]
  | falling =>
    by_cases hpos : g.pos = 0
    · simp [words, hpos]
    · have hcast : ((g.pos - 1 : ℕ) : ℤ) = g.pos - 1 := by omega
      simp [words, hcast, Nat.pos_of_ne_zero hpos]
      simp only [Nat.sub_eq_zero_iff_le]

theorem call_words (c : RampCall) :
    ∃ g' : RampedGain, g.words.call c = g'.words := by
  cases c with
  | requestOn => exact ⟨g.request true, rfl⟩
  | requestOff => exact ⟨g.request false, rfl⟩
  | prepare sampleRate => exact ⟨g.prepare sampleRate, rfl⟩
  | nextGain => exact ⟨g.nextGain.2, g.moved_words⟩

/-- Every order of the calls leaves the words of a ramp. -/
theorem run_words (calls : List RampCall) :
    ∃ g' : RampedGain, g.words.run calls = g'.words := by
  induction calls generalizing g with
  | nil => exact ⟨g, rfl⟩
  | cons c calls ih =>
    obtain ⟨g', hcall⟩ := g.call_words c
    obtain ⟨g'', hrun⟩ := ih g'
    refine ⟨g'', ?_⟩
    rw [RampWords.run, List.foldl_cons, hcall]
    exact hrun

theorem run_words_again {later : List RampCall}
    (hlater : ∀ c ∈ later, c = .nextGain ∨ c = RampCall.again g.target) :
    g.words.run later = (g.advance (later.count .nextGain)).words := by
  induction later generalizing g with
  | nil => rfl
  | cons c later ih =>
    obtain ⟨hc, hrest⟩ := List.forall_mem_cons.mp hlater
    rw [RampWords.run, List.foldl_cons]
    obtain rfl | rfl := hc
    · rw [List.count_cons_self, advance, RampWords.call, moved_words]
      exact ih g.nextGain.2 hrest
    · have hsame : g.words.call (RampCall.again g.target) = g.words := by
        cases htarget : g.target <;> simp [RampCall.again, RampWords.call, words, htarget]
      have hne : RampCall.again g.target ≠ .nextGain := by
        cases htarget : g.target <;> simp [RampCall.again]
      rw [hsame, List.count_cons_of_ne hne]
      exact ih g hrest

/-! ### The gain -/

/-- What a sample is multiplied by depends on the position alone. -/
theorem gain_words :
    g.words.gain = rampShape ((g.pos : ℝ) / g.rampLenSamples) := by
  have hlen : (g.rampLenSamples : ℝ) ≠ 0 := Nat.cast_ne_zero.mpr g.rampLen_pos.ne'
  rw [RampWords.gain, turned_words]
  cases htarget : g.target with
  | true =>
    rw [direction_of_on htarget]
    by_cases htop : g.pos = g.rampLenSamples
    · rw [if_pos htop, htop, div_self hlen, rampShape_one]
    · rw [if_neg htop]
      rfl
  | false =>
    rw [direction_of_off htarget]
    by_cases hbottom : g.pos = 0
    · rw [if_pos hbottom, hbottom, Nat.cast_zero, zero_div, rampShape_zero]
    · rw [if_neg hbottom]
      rfl

/-- One sample moves the position by at most one. -/
theorem abs_moved_pos_sub : |(g.nextGain.2.pos : ℤ) - g.pos| ≤ 1 := by
  have hle := g.pos_le
  change |(g.nextPos : ℤ) - g.pos| ≤ 1
  rw [abs_le]
  cases htarget : g.target with
  | true =>
    rw [nextPos_of_on htarget]
    omega
  | false =>
    rw [nextPos_of_off htarget]
    omega

theorem advance_reached {n : ℕ} (hn : g.rampLenSamples ≤ n) :
    (g.advance n).state = (if g.target then .running else .idle) ∧
      (g.advance n).words.gain = if g.target then 1 else 0 := by
  have hle := g.pos_le
  have hlen := g.rampLen_pos
  have hne : (g.rampLenSamples : ℝ) ≠ 0 := Nat.cast_ne_zero.mpr hlen.ne'
  rw [gain_words, advance_rampLenSamples]
  cases htarget : g.target with
  | true =>
    have hpos : (g.advance n).pos = g.rampLenSamples := by
      rw [advance_pos_on htarget]
      omega
    refine ⟨(g.advance n).running_iff.mpr (hpos.trans (g.advance_rampLenSamples n).symm), ?_⟩
    rw [hpos, div_self hne, rampShape_one]
    rfl
  | false =>
    have hpos : (g.advance n).pos = 0 := by
      rw [advance_pos_off htarget]
      omega
    refine ⟨(g.advance n).idle_iff.mpr hpos, ?_⟩
    rw [hpos, Nat.cast_zero, zero_div, rampShape_zero]
    rfl

end

end RampedGain

/-- **Headline.** Every order of the calls: the position is between the ends and the state names the
ends; a sample is multiplied by the shape at the position it begins from and moves that by at most
one, so that the gain goes on from where it is, whatever is requested; and where no request changes
the target, as many samples as the ramp is long reach it and stay. -/
theorem rampWords_run (sampleRate rampSeconds : ℚ) (calls : List RampCall) :
    let w := (RampWords.construct sampleRate rampSeconds).run calls
    (0 ≤ w.pos ∧ w.pos ≤ w.rampLenSamples ∧ (w.state = .running ↔ w.pos = w.rampLenSamples) ∧
      (w.state = .idle ↔ w.pos = 0)) ∧
    (w.nextGain.1 = rampShape (w.pos / w.rampLenSamples) ∧ |w.nextGain.2.pos - w.pos| ≤ 1 ∧
      w.nextGain.2.rampLenSamples = w.rampLenSamples) ∧
    (∀ target, |({ w.nextGain.2 with target := target } : RampWords).nextGain.1 - w.nextGain.1| ≤
      Real.pi / (2 * w.rampLenSamples)) ∧
    ∀ later, (∀ c ∈ later, c = .nextGain ∨ c = RampCall.again w.target) →
      w.rampLenSamples ≤ later.count .nextGain →
      (w.run later).state = (if w.target then .running else .idle) ∧
        (w.run later).nextGain.1 = if w.target then 1 else 0 := by
  have hstart : RampWords.construct sampleRate rampSeconds =
      (RampedGain.idleAt false sampleRate rampSeconds).words := rfl
  obtain ⟨g, hrun⟩ := (RampedGain.idleAt false sampleRate rampSeconds).run_words calls
  rw [hstart, hrun]
  have hmoved : g.words.nextGain.2 = g.nextGain.2.words := g.moved_words
  refine ⟨⟨Int.natCast_nonneg _, Int.ofNat_le.mpr g.pos_le, ?_, ?_⟩, ⟨g.gain_words, ?_, ?_⟩, ?_, ?_⟩
  · exact g.running_iff.trans Int.natCast_inj.symm
  · exact g.idle_iff.trans Int.natCast_eq_zero.symm
  · rw [hmoved]
    exact g.abs_moved_pos_sub
  · rw [hmoved]
    rfl
  · intro target
    have hnext : ({ g.words.nextGain.2 with target := target } : RampWords) =
        (g.nextGain.2.request target).words := by
      rw [hmoved]
      rfl
    change |({ g.words.nextGain.2 with target := target } : RampWords).gain - g.words.gain| ≤ _
    rw [hnext, RampedGain.gain_words, RampedGain.gain_words]
    exact rampShape_step g.abs_moved_pos_sub
  · intro later hlater hlong
    rw [g.run_words_again hlater]
    exact g.advance_reached (Int.ofNat_le.mp hlong)

end RtaTool
