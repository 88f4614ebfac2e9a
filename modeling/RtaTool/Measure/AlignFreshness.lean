import RtaTool.Dsp.DualFftFrames
import RtaTool.Measure.AlignRunner
import RtaTool.Measure.AlignmentRuns

/-!
# Whose frames an alignment's capture holds

The runner waits on the clock of the output: so many samples rendered since the step's solo. What it
then submits is whatever the analysis thread published last, and that thread has a clock of its own:
it may have a backlog, or not have published for a while. Nothing compares the two.

Here the parties take turns in any order. The device delivers frames, into either ring or past it;
the analysis thread feeds the analyser from the rings, rebuilds it, and publishes; the engine
renders; the operator presses and answers; the runner polls. A sample is known by the moment it was
delivered. What an analyser makes of the frames it averages is a parameter, `estimate`.

A submission is fresh exactly when the latest snapshot had caught up with the step: counting back
from the newest sample the analyser had been fed, the oldest frame of its average begins no earlier
than the step's start.

## Main definitions

* `DualFftEngine.averaged` -- the frames in the average
* `AlignCapture`, `alignCaptures` -- the machine
* `SubmitsFresh`, `CaughtUp` -- the property and the condition

## Main results

* `frames_since_iff` -- the frames of a stream, against a count of its samples
* `submissions_fresh_iff` -- **Headline.** The one holds throughout a run exactly when the other does
* `submissions_stale` -- two steps, one snapshot
-/

namespace RtaTool

open DualFftEngine

/-! ### The samples since a moment -/

/-- In a stream in order of time, everything from a place on is recent exactly when the recent samples
reach back to that place. -/
theorem forall_mem_drop_iff {stamps : List ℕ} (h : stamps.Pairwise (· < ·)) (start k : ℕ) :
    (∀ x ∈ stamps.drop k, start ≤ x) ↔
      stamps.length ≤ k + stamps.countP (fun x => decide (start ≤ x)) := by
  induction stamps generalizing k with
  | nil => simp
  | cons x stamps ih =>
    obtain ⟨hlt, htail⟩ := List.pairwise_cons.mp h
    rw [List.countP_cons, List.length_cons]
    have hle := stamps.countP_le_length (p := fun x => decide (start ≤ x))
    have hall : start ≤ x → stamps.countP (fun x => decide (start ≤ x)) = stamps.length := by
      intro hx
      rw [List.countP_eq_length]
      intro y hy
      exact decide_eq_true (hx.trans (Nat.le_of_lt (hlt y hy)))
    cases k with
    | zero =>
      rw [List.drop_zero, List.forall_mem_cons]
      constructor
      · rintro ⟨hx, -⟩
        rw [if_pos (decide_eq_true hx), hall hx]
        omega
      · intro hlen
        have hx : start ≤ x := by
          by_contra hx
          rw [if_neg (by simpa using hx)] at hlen
          omega
        exact ⟨hx, fun y hy => hx.trans (Nat.le_of_lt (hlt y hy))⟩
    | succ k =>
      rw [List.drop_succ_cons, ih htail]
      by_cases hx : start ≤ x
      · rw [if_pos (decide_eq_true hx), hall hx]
        omega
      · rw [if_neg (by simpa using hx)]
        omega

/-! ### The frames in the average -/

namespace DualFftConfig

/-- How many complete frames a stream of `n` sample pairs has. -/
def framesOf (config : DualFftConfig) (n : ℕ) : ℕ :=
  if n < config.referenceDelaySamples.natAbs + config.fftSize then 0
  else (n - config.referenceDelaySamples.natAbs - config.fftSize) / config.hopSize + 1

/-- The first of the frames that are averaged: a FIFO forgets at its depth, an exponential average
does not forget. -/
def averagedFrom (config : DualFftConfig) (frames : ℕ) : ℕ :=
  match config.averaging with
  | .fifo => frames - min frames config.fifoDepth
  | .exponential => 0

/-- Where the oldest averaged frame of a stream of `n` sample pairs begins. -/
def oldestSample (config : DualFftConfig) (n : ℕ) : ℕ :=
  config.averagedFrom (config.framesOf n) * config.hopSize

theorem averagedFrom_lt {config : DualFftConfig} {frames : ℕ} (hpos : 0 < frames)
    (hdepth : config.averaging = .fifo → config.fifoDepth ≠ 0) :
    config.averagedFrom frames < frames := by
  rw [averagedFrom]
  split
  · rename_i hfifo
    have := hdepth hfifo
    omega
  · exact hpos

end DualFftConfig

variable {config : DualFftConfig} {stream : List (ℕ × ℕ)}

/-- The frame pairs that are averaged. -/
def DualFftEngine.averaged {Sample : Type} (e : DualFftEngine Sample) :
    List (List Sample × List Sample) :=
  e.frames.drop (e.config.averagedFrom e.frames.length)

theorem lt_framesOf_iff (hc : Accepted config) {n j : ℕ} :
    j < config.framesOf n ↔ config.referenceDelaySamples.natAbs + j * config.hopSize +
      config.fftSize ≤ n := by
  rw [DualFftConfig.framesOf]
  split
  · constructor
    · exact fun h => absurd h (Nat.not_lt_zero _)
    · intro h
      omega
  · rw [Nat.lt_succ_iff, Nat.le_div_iff_mul_le hc.hop_pos]
    omega

theorem framePair_isSome_iff (hc : Accepted config) (stream : List (ℕ × ℕ)) (j : ℕ) :
    (framePair config stream j).isSome ↔ j < config.framesOf stream.length := by
  rw [lt_framesOf_iff hc, framePair]
  split
  · rename_i h
    simp only [Option.isSome_some, true_iff]
    omega
  · rename_i h
    simp only [Option.isSome_none, Bool.false_eq_true, false_iff]
    omega

theorem length_of_frames (hc : Accepted config) {frames : List (List ℕ × List ℕ)}
    (hframes : ∀ j, frames[j]? = framePair config stream j) :
    frames.length = config.framesOf stream.length := by
  have hiff : ∀ j, j < frames.length ↔ j < config.framesOf stream.length := by
    intro j
    rw [← framePair_isSome_iff hc, ← hframes j, isSome_getElem?]
  have h₁ := hiff frames.length
  have h₂ := hiff (config.framesOf stream.length)
  omega

/-- A FIFO that is let through has room for a frame. -/
theorem fifoDepth_ne_zero_of_validate (h : config.validate = .ok ())
    (hfifo : config.averaging = .fifo) : config.fifoDepth ≠ 0 := by
  intro hdepth
  rw [DualFftConfig.validate] at h
  split at h
  · cases h
  · dsimp only at h
    split at h
    · cases h
    · rw [if_pos ⟨hfifo, hdepth⟩] at h
      cases h

theorem fifoDepth_ne_zero_of_make {e : DualFftEngine ℕ} (h : make config = .ok e)
    (hfifo : config.averaging = .fifo) : config.fifoDepth ≠ 0 := by
  rw [make] at h
  obtain ⟨⟨⟩, -, h⟩ := ok_of_bind h
  obtain ⟨skip, -, h⟩ := ok_of_bind h
  obtain ⟨referenceRing, -, h⟩ := ok_of_bind h
  obtain ⟨measurementRing, -, h⟩ := ok_of_bind h
  obtain ⟨⟨⟩, hvalid, -⟩ := ok_of_bind h
  exact fifoDepth_ne_zero_of_validate hvalid hfifo

/-- One side of the averaged frames. -/
theorem frames_since_iff {stamps : List ℕ} (h : stamps.Pairwise (· < ·))
    {oldest frames fft : ℕ} (lead hop : ℕ) (hfft : 0 < fft) (holdest : oldest < frames)
    (hfits : ∀ j < frames, lead + j * hop + fft ≤ stamps.length) (start : ℕ) :
    (∀ j, oldest ≤ j → j < frames → ∀ x ∈ (stamps.drop (lead + j * hop)).take fft, start ≤ x) ↔
      stamps.length ≤ lead + oldest * hop + stamps.countP (fun x => decide (start ≤ x)) := by
  rw [← forall_mem_drop_iff h]
  constructor
  · intro hall x hx
    have hfit := hfits oldest holdest
    have hsorted := (h.sublist (List.drop_sublist (lead + oldest * hop) stamps))
    cases hdrop : stamps.drop (lead + oldest * hop) with
    | nil =>
      have hlen := congrArg List.length hdrop
      rw [List.length_drop, List.length_nil] at hlen
      omega
    | cons first rest =>
      have hfirst : start ≤ first := by
        refine hall oldest (Nat.le_refl _) holdest first ?_
        rw [hdrop]
        obtain ⟨fft, rfl⟩ := Nat.exists_eq_add_of_lt hfft
        simp
      rw [hdrop] at hx hsorted
      rcases List.mem_cons.mp hx with rfl | hmem
      · exact hfirst
      · exact hfirst.trans (Nat.le_of_lt ((List.pairwise_cons.mp hsorted).1 x hmem))
  · intro hall j hj _ x hx
    refine hall x ?_
    have hle : lead + oldest * hop ≤ lead + j * hop :=
      Nat.add_le_add_left (Nat.mul_le_mul_right _ hj) _
    have hmem := List.mem_of_mem_take hx
    obtain ⟨d, hd⟩ := Nat.exists_eq_add_of_le hle
    rw [hd, ← List.drop_drop] at hmem
    exact List.mem_of_mem_drop hmem

/-! ### A published snapshot -/

/-- A snapshot, the analyser it was made from as it was then, and what that had been fed. -/
structure PublishedTransfer where
  snapshot : Snapshot
  analyser : DualFftEngine ℕ
  stream : List (ℕ × ℕ)

namespace PublishedTransfer

/-- Every frame in the average is of samples delivered since a moment. -/
def Fresh (p : PublishedTransfer) (start : ℕ) : Prop :=
  ∀ frame ∈ p.analyser.averaged, (∀ x ∈ frame.1, start ≤ x) ∧ ∀ x ∈ frame.2, start ≤ x

instance (p : PublishedTransfer) (start : ℕ) : Decidable (p.Fresh start) :=
  inferInstanceAs (Decidable (∀ frame ∈ p.analyser.averaged, _))

/-- The samples of one channel since a moment, that the analyser had been fed. -/
def since (stamps : List ℕ) (start : ℕ) : ℕ := stamps.countP fun x => decide (start ≤ x)

/-- Of each channel, the samples since a moment reach back from the newest to where the oldest
averaged frame begins. -/
def CaughtUp (p : PublishedTransfer) (start : ℕ) : Prop :=
  let n := p.stream.length
  let oldest := p.analyser.config.oldestSample n
  n ≤ p.analyser.config.referenceLead + oldest + since (p.stream.map (·.1)) start ∧
    n ≤ p.analyser.config.measurementLead + oldest + since (p.stream.map (·.2)) start

instance (p : PublishedTransfer) (start : ℕ) : Decidable (p.CaughtUp start) :=
  inferInstanceAs (Decidable (_ ∧ _))

/-- What is true of everything that is published. -/
structure Sound (p : PublishedTransfer) : Prop where
  accepted : Accepted p.analyser.config
  depth : p.analyser.config.averaging = .fifo → p.analyser.config.fifoDepth ≠ 0
  frames : ∀ j, p.analyser.frames[j]? = framePair p.analyser.config p.stream j
  references : (p.stream.map (·.1)).Pairwise (· < ·)
  measurements : (p.stream.map (·.2)).Pairwise (· < ·)
  nonempty : p.snapshot.transfer.isSome → p.analyser.frames ≠ []

variable {p : PublishedTransfer}

theorem Sound.length_frames (h : p.Sound) :
    p.analyser.frames.length = p.analyser.config.framesOf p.stream.length :=
  length_of_frames h.accepted h.frames

/-- A frame pair is there when both channels have its samples. -/
theorem Sound.frame_fits (h : p.Sound) {j : ℕ} (hj : j < p.analyser.frames.length) :
    p.analyser.config.referenceLead + j * p.analyser.config.hopSize +
        p.analyser.config.fftSize ≤ p.stream.length ∧
      p.analyser.config.measurementLead + j * p.analyser.config.hopSize +
        p.analyser.config.fftSize ≤ p.stream.length := by
  obtain ⟨hlead, -⟩ := lead_add p.analyser.config
  rw [h.length_frames, lt_framesOf_iff h.accepted] at hj
  omega

theorem Sound.getElem_frames (h : p.Sound) {j : ℕ} (hj : j < p.analyser.frames.length) :
    p.analyser.frames[j] =
      (((p.stream.map (·.1)).drop (p.analyser.config.referenceLead +
          j * p.analyser.config.hopSize)).take p.analyser.config.fftSize,
        ((p.stream.map (·.2)).drop (p.analyser.config.measurementLead +
          j * p.analyser.config.hopSize)).take p.analyser.config.fftSize) := by
  have hframe := h.frames j
  rw [framePair, ← referenceLead_eq, ← measurementLead_eq, if_pos (h.frame_fits hj),
    List.getElem?_eq_getElem hj] at hframe
  exact Option.some.inj hframe

theorem fresh_iff_getElem {start : ℕ} :
    p.Fresh start ↔ ∀ j, p.analyser.config.averagedFrom p.analyser.frames.length ≤ j →
      ∀ hj : j < p.analyser.frames.length,
        (∀ x ∈ (p.analyser.frames[j]).1, start ≤ x) ∧ ∀ x ∈ (p.analyser.frames[j]).2, start ≤ x := by
  rw [Fresh, averaged]
  constructor
  · intro hall j hle hj
    refine hall _ (List.mem_iff_getElem?.mpr
      ⟨j - p.analyser.config.averagedFrom p.analyser.frames.length, ?_⟩)
    rw [List.getElem?_drop, Nat.add_sub_cancel' hle, List.getElem?_eq_getElem hj]
  · intro hall frame hframe
    obtain ⟨i, hi⟩ := List.mem_iff_getElem?.mp hframe
    rw [List.getElem?_drop] at hi
    obtain ⟨hj, rfl⟩ := List.getElem?_eq_some_iff.mp hi
    exact hall _ (Nat.le_add_right _ _) hj

theorem Sound.fresh_iff (h : p.Sound)
    (htransfer : p.snapshot.transfer.isSome) (start : ℕ) : p.Fresh start ↔ p.CaughtUp start := by
  have holdest := DualFftConfig.averagedFrom_lt (List.length_pos_of_ne_nil (h.nonempty htransfer))
    h.depth
  have hfft : 0 < p.analyser.config.fftSize :=
    Nat.lt_of_lt_of_le h.accepted.hop_pos h.accepted.hop_le
  have hreferences := frames_since_iff h.references p.analyser.config.referenceLead
    p.analyser.config.hopSize hfft holdest
    (fun j hj => by
      rw [List.length_map]
      exact (h.frame_fits hj).1) start
  have hmeasurements := frames_since_iff h.measurements p.analyser.config.measurementLead
    p.analyser.config.hopSize hfft holdest
    (fun j hj => by
      rw [List.length_map]
      exact (h.frame_fits hj).2) start
  rw [List.length_map] at hreferences hmeasurements
  rw [fresh_iff_getElem, CaughtUp, DualFftConfig.oldestSample, ← h.length_frames, since, since,
    ← hreferences, ← hmeasurements]
  constructor
  · intro hall
    refine ⟨fun j hle hj x hx => ?_, fun j hle hj x hx => ?_⟩
    · have := (hall j hle hj).1
      rw [h.getElem_frames hj] at this
      exact this x hx
    · have := (hall j hle hj).2
      rw [h.getElem_frames hj] at this
      exact this x hx
  · rintro ⟨hrefs, hmeas⟩ j hle hj
    rw [h.getElem_frames hj]
    exact ⟨hrefs j hle hj, hmeas j hle hj⟩

end PublishedTransfer

/-! ### The parties -/

/-- The engine and the runner, the rings of the measured pair of channels, the analyser with what it
has been fed since it was built, and the latest published snapshot. -/
structure AlignCapture (Src Ir : Type) where
  engine : OutputEngine Src
  runner : AlignRunner Src Ir
  delivered : ℕ
  referenceRing : List ℕ
  measurementRing : List ℕ
  analyser : DualFftEngine ℕ
  stream : List (ℕ × ℕ)
  latest : Option PublishedTransfer

/-- What can happen next. -/
inductive AlignCaptureAct (Src Ir : Type)
  | answer (answers : AlignAnswers)
  | bindIr (source : Source) (ir : Option (SweepWitness Ir))
  | press (h : AlignView)
  | pressSum (h : AlignView)
  | answerCycleMs (milliseconds : ℚ)
  | poll (h : AlignView)
  /-- Another feature has used the engine, while no alignment is measuring. -/
  | otherOwner (e : OutputEngine Src)
  | render (hasOutput : Bool) (numOutputChannels numSamples : ℤ)
  /-- The device delivers frames; a ring that is full, or gated, takes none of them. -/
  | deliver (n : ℕ) (reference measurement : Bool)
  /-- Frames are thrown away, by the drain of a resync. -/
  | discard (reference measurement : ℕ)
  /-- The analysis thread hands `n` samples of each ring to the analyser. -/
  | feed (n : ℕ)
  /-- The analysis thread rebuilds the analyser, for a new rate or delay. -/
  | rebuild (sampleRate : ℚ) (referenceDelaySamples : ℤ)
  | publish

namespace AlignCapture

variable {Src Ir : Type}

/-- The moments of the next `n` frames. -/
def nextFrames (s : AlignCapture Src Ir) (n : ℕ) : List ℕ := List.range' s.delivered n

/-- What the runner sees: the rest of the view is given. -/
def view (config : DualFftConfig) (s : AlignCapture Src Ir) (h : AlignView) : AlignView :=
  { h with
    latest := s.latest.map (·.snapshot)
    captureConfig := ⟨config.averaging, config.fifoDepth⟩
    delivered := s.delivered }

/-- `deliver`. -/
def deliver (s : AlignCapture Src Ir) (n : ℕ) (reference measurement : Bool) :
    AlignCapture Src Ir :=
  { s with
    delivered := s.delivered + n
    referenceRing := if reference then s.referenceRing ++ s.nextFrames n else s.referenceRing
    measurementRing :=
      if measurement then s.measurementRing ++ s.nextFrames n else s.measurementRing }

/-- `pushPair`, as far as the transfer engine goes. A call that threw would leave it alone. -/
def feed (s : AlignCapture Src Ir) (n : ℕ) : AlignCapture Src Ir :=
  let fed := (s.referenceRing.take n).zip (s.measurementRing.take n)
  let s := { s with
    referenceRing := s.referenceRing.drop n
    measurementRing := s.measurementRing.drop n }
  match s.analyser.process (fed.map (·.1)) (fed.map (·.2)) with
  | .ok analyser => { s with analyser := analyser, stream := s.stream ++ fed }
  | .error _ => s

/-- A rebuild that throws leaves the analyser for the next tick. -/
def rebuild (config : DualFftConfig) (s : AlignCapture Src Ir) (sampleRate : ℚ)
    (referenceDelaySamples : ℤ) : AlignCapture Src Ir :=
  match make { config with
      sampleRate := sampleRate
      referenceDelaySamples := referenceDelaySamples } with
  | .ok analyser => { s with analyser := analyser, stream := [] }
  | .error _ => s

/-- `publish()`: there is a transfer estimate once a frame has been analysed. -/
def publish (estimate : List (List ℕ × List ℕ) → TransferEstimate) (s : AlignCapture Src Ir) :
    AlignCapture Src Ir :=
  { s with
    latest := some
      { snapshot :=
          { fftSize := s.analyser.config.fftSize
            sampleRate := s.analyser.config.sampleRate
            transfer := if s.analyser.frames = [] then none else some (estimate s.analyser.averaged) }
        analyser := s.analyser
        stream := s.stream } }

end AlignCapture

/-- Every run of an alignment beside the capture, the analysis and the output. `config` is what the
analysis thread was constructed with, `pinkNoise` the source's constructor. -/
def alignCaptures {Src Ir : Type} [AudioSource Src] (pinkNoise : UInt64 → ℚ → Src)
    (dsp : AlignDsp Ir) (estimate : List (List ℕ × List ℕ) → TransferEstimate)
    (config : DualFftConfig) : Machine (AlignCapture Src Ir) (AlignCaptureAct Src Ir) where
  init s := ∃ e r analyser, make config = .ok analyser ∧ r.wizard = none ∧
    s = ⟨e, r, 0, [], [], analyser, [], none⟩
  step s
    | .answer answers => some { s with runner := { s.runner with answers := answers } }
    | .bindIr source ir => some { s with runner := s.runner.bindIr source ir }
    | .press h =>
      let pressed := s.runner.press pinkNoise s.engine (s.view config h)
      some { s with engine := pressed.2.1, runner := pressed.2.2 }
    | .pressSum h =>
      let pressed := s.runner.pressSum pinkNoise s.engine (s.view config h)
      some { s with engine := pressed.2.1, runner := pressed.2.2 }
    | .answerCycleMs milliseconds =>
      some { s with runner := s.runner.answerCycleMs milliseconds }
    | .poll h =>
      let polled := s.runner.poll dsp s.engine (s.view config h)
      some { s with engine := polled.1, runner := polled.2 }
    | .otherOwner e => if s.runner.measuring then none else some { s with engine := e }
    | .render hasOutput numOutputChannels numSamples =>
      some { s with engine := s.engine.render hasOutput numOutputChannels numSamples }
    | .deliver n reference measurement => some (s.deliver n reference measurement)
    | .discard reference measurement =>
      some { s with
        referenceRing := s.referenceRing.drop reference
        measurementRing := s.measurementRing.drop measurement }
    | .feed n =>
      if n ≤ s.referenceRing.length ∧ n ≤ s.measurementRing.length then some (s.feed n) else none
    | .rebuild sampleRate referenceDelaySamples =>
      some (s.rebuild config sampleRate referenceDelaySamples)
    | .publish => some (s.publish estimate)

namespace AlignCapture

variable {Src Ir : Type}

/-- What a step submits: the latest of what was published, if it is a poll that submits. -/
def submitted (config : DualFftConfig) (s : AlignCapture Src Ir) :
    AlignCaptureAct Src Ir → Option PublishedTransfer
  | .poll h => if (s.runner.submission s.engine (s.view config h)).isSome then s.latest else none
  | _ => none

/-- A capture that is submitted holds no frame from before its step. -/
def SubmitsFresh (config : DualFftConfig) (s : AlignCapture Src Ir) (a : AlignCaptureAct Src Ir)
    (_ : AlignCapture Src Ir) : Prop :=
  ∀ p ∈ s.submitted config a, p.Fresh s.runner.stepStartDelivered

/-- The snapshot that is submitted had caught up with the step. -/
def CaughtUp (config : DualFftConfig) (s : AlignCapture Src Ir) (a : AlignCaptureAct Src Ir)
    (_ : AlignCapture Src Ir) : Prop :=
  ∀ p ∈ s.submitted config a, p.CaughtUp s.runner.stepStartDelivered

instance (config : DualFftConfig) (s : AlignCapture Src Ir) (a : AlignCaptureAct Src Ir)
    (t : AlignCapture Src Ir) : Decidable (SubmitsFresh config s a t) :=
  inferInstanceAs (Decidable (∀ p ∈ s.submitted config a, _))

instance (config : DualFftConfig) (s : AlignCapture Src Ir) (a : AlignCaptureAct Src Ir)
    (t : AlignCapture Src Ir) : Decidable (CaughtUp config s a t) :=
  inferInstanceAs (Decidable (∀ p ∈ s.submitted config a, _))

/-! ### The invariant -/

/-- A channel's samples are in order of time, those the analyser has been fed before those in the
ring, and all of them have been delivered. -/
def InOrder (delivered : ℕ) (fed ring : List ℕ) : Prop :=
  (fed ++ ring).Pairwise (· < ·) ∧ ∀ x ∈ fed ++ ring, x < delivered

/-- The invariant of the capture, the analysis and the publication. -/
structure Kept (s : AlignCapture Src Ir) : Prop where
  accepted : Accepted s.analyser.config
  depth : s.analyser.config.averaging = .fifo → s.analyser.config.fifoDepth ≠ 0
  aligned : AlignedAt s.analyser.config s.analyser (s.stream.map (·.1)) (s.stream.map (·.2))
  drained : Drained s.analyser.config s.analyser (s.stream.map (·.1)) (s.stream.map (·.2))
  references : InOrder s.delivered (s.stream.map (·.1)) s.referenceRing
  measurements : InOrder s.delivered (s.stream.map (·.2)) s.measurementRing
  latest : ∀ p ∈ s.latest, p.Sound

theorem InOrder.deliver {delivered n : ℕ} {fed ring : List ℕ} (h : InOrder delivered fed ring)
    (taken : Bool) :
    InOrder (delivered + n) fed (if taken then ring ++ List.range' delivered n else ring) := by
  obtain ⟨hpair, hlt⟩ := h
  cases taken with
  | false => exact ⟨hpair, fun x hx => Nat.lt_add_right n (hlt x hx)⟩
  | true =>
    rw [if_pos rfl, InOrder, ← List.append_assoc]
    refine ⟨List.pairwise_append.mpr ⟨hpair, List.pairwise_lt_range' .., ?_⟩, ?_⟩
    · intro x hx y hy
      rw [List.mem_range'_1] at hy
      exact Nat.lt_of_lt_of_le (hlt x hx) hy.1
    · intro x hx
      rcases List.mem_append.mp hx with hx | hx
      · exact Nat.lt_add_right n (hlt x hx)
      · rw [List.mem_range'_1] at hx
        exact hx.2

theorem InOrder.discard {delivered : ℕ} {fed ring : List ℕ} (h : InOrder delivered fed ring)
    (n : ℕ) : InOrder delivered fed (ring.drop n) :=
  ⟨h.1.sublist ((List.drop_sublist n ring).append_left fed), fun x hx =>
    h.2 x (((List.drop_sublist n ring).append_left fed).subset hx)⟩

theorem InOrder.feed {delivered : ℕ} {fed ring : List ℕ} (h : InOrder delivered fed ring) (n : ℕ) :
    InOrder delivered (fed ++ ring.take n) (ring.drop n) := by
  rw [InOrder, List.append_assoc, List.take_append_drop]
  exact h

/-- A new analyser has been fed nothing. -/
theorem InOrder.restart {delivered : ℕ} {fed ring : List ℕ} (h : InOrder delivered fed ring) :
    InOrder delivered [] ring :=
  ⟨(List.pairwise_append.mp h.1).2.1, fun x hx => h.2 x (List.mem_append_right fed hx)⟩

theorem InOrder.fed {delivered : ℕ} {fed ring : List ℕ} (h : InOrder delivered fed ring) :
    fed.Pairwise (· < ·) := (List.pairwise_append.mp h.1).1

/-- What touches neither the rings nor the analyser nor the publication. -/
theorem Kept.congr {s t : AlignCapture Src Ir} (hs : Kept s) (hdelivered : t.delivered = s.delivered)
    (href : t.referenceRing = s.referenceRing) (hmeas : t.measurementRing = s.measurementRing)
    (hanalyser : t.analyser = s.analyser) (hstream : t.stream = s.stream)
    (hlatest : t.latest = s.latest) : Kept t := by
  cases s
  cases t
  subst hdelivered href hmeas hanalyser hstream hlatest
  exact ⟨hs.accepted, hs.depth, hs.aligned, hs.drained, hs.references, hs.measurements, hs.latest⟩

variable {s : AlignCapture Src Ir}

theorem Kept.deliver (hs : Kept s) (n : ℕ) (reference measurement : Bool) :
    Kept (s.deliver n reference measurement) :=
  ⟨hs.accepted, hs.depth, hs.aligned, hs.drained, hs.references.deliver reference,
    hs.measurements.deliver measurement, hs.latest⟩

theorem Kept.discard (hs : Kept s) (reference measurement : ℕ) :
    Kept { s with
      referenceRing := s.referenceRing.drop reference
      measurementRing := s.measurementRing.drop measurement } :=
  ⟨hs.accepted, hs.depth, hs.aligned, hs.drained, hs.references.discard reference,
    hs.measurements.discard measurement, hs.latest⟩

/-- The call never throws: the analyser makes of the samples what they are. -/
theorem Kept.feed (hs : Kept s) {n : ℕ}
    (href : n ≤ s.referenceRing.length) (hmeas : n ≤ s.measurementRing.length) :
    Kept (s.feed n) := by
  have hlength : (s.referenceRing.take n).length = (s.measurementRing.take n).length := by
    rw [List.length_take, List.length_take]
    omega
  have hrefs : ((s.referenceRing.take n).zip (s.measurementRing.take n)).map (·.1) =
      s.referenceRing.take n := List.map_fst_zip (Nat.le_of_eq hlength)
  have hmeass : ((s.referenceRing.take n).zip (s.measurementRing.take n)).map (·.2) =
      s.measurementRing.take n := List.map_snd_zip (Nat.le_of_eq hlength.symm)
  obtain ⟨analyser, hcall, haligned, hdrained⟩ := hs.aligned.call hs.accepted hs.drained
    (.process ((s.referenceRing.take n).zip (s.measurementRing.take n)))
  have hconfig := haligned.config_eq
  rw [DualFftEngine.call] at hcall
  rw [AlignCapture.feed]
  dsimp only
  rw [hcall]
  refine ⟨?_, ?_, ?_, ?_, ?_, ?_, hs.latest⟩
  · rw [hconfig]
    exact hs.accepted
  · rw [hconfig]
    exact hs.depth
  · rw [hconfig]
    exact haligned
  · rw [hconfig]
    exact hdrained
  · show InOrder s.delivered ((s.stream ++ _).map (·.1)) _
    rw [List.map_append, hrefs]
    exact hs.references.feed n
  · show InOrder s.delivered ((s.stream ++ _).map (·.2)) _
    rw [List.map_append, hmeass]
    exact hs.measurements.feed n

theorem Kept.of_make {config : DualFftConfig} {analyser : DualFftEngine ℕ}
    (hmake : make config = .ok analyser) (href : InOrder s.delivered [] s.referenceRing)
    (hmeas : InOrder s.delivered [] s.measurementRing) (hlatest : ∀ p ∈ s.latest, p.Sound) :
    Kept { s with analyser := analyser, stream := [] } := by
  obtain ⟨haccepted, haligned⟩ := alignedAt_of_make hmake
  have hconfig := haligned.config_eq
  refine ⟨?_, ?_, ?_, ?_, href, hmeas, hlatest⟩
  · rw [hconfig]
    exact haccepted
  · rw [hconfig]
    exact fifoDepth_ne_zero_of_make hmake
  · rw [hconfig]
    exact haligned
  · rw [hconfig]
    exact haccepted.drained_nil

theorem Kept.rebuild (hs : Kept s) (config : DualFftConfig)
    (sampleRate : ℚ) (referenceDelaySamples : ℤ) :
    Kept (s.rebuild config sampleRate referenceDelaySamples) := by
  rw [AlignCapture.rebuild]
  split
  · rename_i hmake
    exact .of_make hmake hs.references.restart hs.measurements.restart hs.latest
  · exact hs

theorem Kept.publish (hs : Kept s)
    (estimate : List (List ℕ × List ℕ) → TransferEstimate) : Kept (s.publish estimate) := by
  refine ⟨hs.accepted, hs.depth, hs.aligned, hs.drained, hs.references, hs.measurements, ?_⟩
  intro p hp
  obtain rfl := Option.some.inj hp
  refine ⟨hs.accepted, hs.depth, hs.aligned.getElem?_frames hs.accepted hs.drained,
    hs.references.fed, hs.measurements.fed, ?_⟩
  dsimp only
  intro htransfer hnil
  rw [if_pos hnil] at htransfer
  cases htransfer

/-- Nothing that anyone does breaks the invariant. -/
theorem Kept.step [AudioSource Src] {pinkNoise : UInt64 → ℚ → Src} {dsp : AlignDsp Ir}
    {estimate : List (List ℕ × List ℕ) → TransferEstimate} {config : DualFftConfig}
    {s t : AlignCapture Src Ir} (hs : Kept s) {a : AlignCaptureAct Src Ir}
    (h : (alignCaptures pinkNoise dsp estimate config).step s a = some t) : Kept t := by
  cases a with
  | answer | bindIr | press | pressSum | answerCycleMs | poll | render =>
    cases h
    exact hs.congr rfl rfl rfl rfl rfl rfl
  | otherOwner e =>
    simp only [alignCaptures] at h
    split at h
    · cases h
    · cases h
      exact hs.congr rfl rfl rfl rfl rfl rfl
  | deliver n reference measurement =>
    cases h
    exact hs.deliver n reference measurement
  | discard reference measurement =>
    cases h
    exact hs.discard reference measurement
  | feed n =>
    simp only [alignCaptures, Option.ite_none_right_eq_some] at h
    obtain ⟨⟨href, hmeas⟩, h⟩ := h
    cases h
    exact hs.feed href hmeas
  | rebuild sampleRate referenceDelaySamples =>
    cases h
    exact hs.rebuild config sampleRate referenceDelaySamples
  | publish =>
    cases h
    exact hs.publish estimate

theorem transfer_of_submitted {config : DualFftConfig}
    {a : AlignCaptureAct Src Ir} {p : PublishedTransfer} (h : p ∈ s.submitted config a) :
    s.latest = some p ∧ p.snapshot.transfer.isSome := by
  rw [submitted.eq_def] at h
  split at h
  · rename_i view
    split at h
    · rename_i hsome
      obtain ⟨⟨step, snapshot⟩, hsub⟩ := Option.isSome_iff_exists.mp hsome
      obtain ⟨hlatest, htransfer⟩ := AlignRunner.latest_of_submission hsub
      rw [AlignCapture.view, h] at hlatest
      obtain rfl := Option.some.inj hlatest
      exact ⟨h, htransfer⟩
    · cases h
  · cases h

end AlignCapture

open AlignCapture

/-- **Headline.** In whatever order the parties act, no capture that a run submits holds a frame from
before its step, exactly if every snapshot that it submits had caught up with the step. -/
theorem submissions_fresh_iff {Src Ir : Type} [AudioSource Src] (pinkNoise : UInt64 → ℚ → Src)
    (dsp : AlignDsp Ir) (estimate : List (List ℕ × List ℕ) → TransferEstimate)
    (config : DualFftConfig) {s : AlignCapture Src Ir}
    (hs : (alignCaptures pinkNoise dsp estimate config).init s)
    (acts : List (AlignCaptureAct Src Ir)) :
    (alignCaptures pinkNoise dsp estimate config).AlongSteps (SubmitsFresh config) s acts ↔
      (alignCaptures pinkNoise dsp estimate config).AlongSteps (CaughtUp config) s acts := by
  refine Machine.alongSteps_iff Kept (fun _ _ _ hu hstep _ => hu.step hstep) ?_ ?_
  · intro u a t hu _
    refine forall₂_congr fun p hp => ?_
    obtain ⟨hlatest, htransfer⟩ := transfer_of_submitted hp
    exact (hu.latest p hlatest).fresh_iff htransfer _
  · obtain ⟨e, r, analyser, hmake, -, rfl⟩ := hs
    have hempty : InOrder 0 [] [] := ⟨.nil, fun _ hx => absurd hx List.not_mem_nil⟩
    exact .of_make (s := ⟨e, r, 0, [], [], analyser, [], none⟩) hmake hempty hempty
      fun _ hp => absurd hp (Option.not_mem_none _)

/-! ### Two steps -/

/-- A short grid: eight rendered samples are the dwell. -/
def shortConfig : DualFftConfig := { fftSize := 4, hopSize := 2, fifoDepth := 2 }

/-- The runs of two loudspeakers on it. -/
def shortCaptures : Machine (AlignCapture (RatedSource Unit) Unit)
    (AlignCaptureAct (RatedSource Unit) Unit) :=
  alignCaptures (fun _ _ => ⟨(), 48000, 0⟩) (steadyDsp .positive)
    (fun _ => ⟨[0, 0, 0], some [1, 1, 1], 2⟩) shortConfig

/-- A device with two outputs, at the time zero. -/
def stereoView : AlignView where
  attached := true
  environment := { deviceRunning := true, outputChannels := 2 }
  latest := none
  pressLatest := some ⟨4, 48000, none⟩
  captureConfig := {}
  freeze _ := some phasedCapture
  nowMs := 0
  drive := none
  delivered := 0

/-- Nothing has been delivered, and nothing asked. -/
def silentStart (analyser : DualFftEngine ℕ) : AlignCapture (RatedSource Unit) Unit :=
  ⟨.make, {}, 0, [], [], analyser, [], none⟩

/-- A test of the state that the constructors leave. -/
def atSilentStart (test : AlignCapture (RatedSource Unit) Unit → Bool) : Bool :=
  match (make shortConfig : Except DualFftError (DualFftEngine ℕ)) with
  | .ok analyser => test (silentStart analyser)
  | .error _ => false

theorem exists_start_of_test {P : AlignCapture (RatedSource Unit) Unit → Prop} [DecidablePred P]
    (h : atSilentStart (fun s => decide (P s)) = true) : ∃ s, shortCaptures.init s ∧ P s := by
  rw [atSilentStart] at h
  split at h
  · rename_i analyser hmake
    exact ⟨_, ⟨_, _, analyser, hmake, rfl, rfl⟩, of_decide_eq_true h⟩
  · cases h

/-- Eight frames, delivered, analysed and published. -/
def heardFrames : List (AlignCaptureAct (RatedSource Unit) Unit) :=
  [.deliver 8 true true, .feed 8, .publish]

/-- Ten milliseconds of excitation, and a poll. -/
def playedStep : List (AlignCaptureAct (RatedSource Unit) Unit) :=
  [.render true 2 480, .poll stereoView]

/-- A measurement of the first loudspeaker. -/
def firstStep : List (AlignCaptureAct (RatedSource Unit) Unit) :=
  .answer ⟨0, 1, some .main, some {}, some .no, true, none⟩ :: heardFrames ++
    .press stereoView :: heardFrames ++ playedStep

/-- The analysis keeps up with the second step as well. -/
theorem submissions_fresh_both_steps : ∃ s, shortCaptures.init s ∧
    shortCaptures.AlongSteps (SubmitsFresh shortConfig) s (firstStep ++ heardFrames ++ playedStep) := by
  obtain ⟨s, hs, hkept⟩ := exists_start_of_test
    (P := fun s => shortCaptures.AlongSteps (AlignCapture.CaughtUp shortConfig) s
      (firstStep ++ heardFrames ++ playedStep)) (by decide +kernel)
  exact ⟨s, hs, (submissions_fresh_iff _ _ _ _ hs _).mpr hkept⟩

/-- Nothing is published during the second step: the first loudspeaker's frames are submitted for
the second. -/
theorem submissions_stale : ∃ s, shortCaptures.init s ∧
    ¬ shortCaptures.AlongSteps (SubmitsFresh shortConfig) s (firstStep ++ playedStep) := by
  exact exists_start_of_test (by decide +kernel)

end RtaTool
