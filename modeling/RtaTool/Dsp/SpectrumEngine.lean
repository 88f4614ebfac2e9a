import RtaTool.Dsp.TransferAverages

/-!
# The spectrum engine

One stream, a ring for what has not been analysed, a frame every hop. The average of the frames is
kept frame by frame: in linear mode it moves by the new frame's share of the difference, in
exponential mode by a fixed share.

Between calls the ring holds the stream from the next frame on, and less than a frame of it. So it
always has room, and how the stream was cut leaves no trace in the frames, and none in the average.
`frames` has the frames that were analysed since the constructor or the last `reset`.

## Main definitions

* `SpectrumConfig`, `SpectrumError`, `SpectrumEngine`
* `SpectrumEngine.make`, `analyseFrame`, `drainFrames`, `process`, `reset`, `run`
* `SpectrumEngine.Follows` -- the invariant

## Main results

* `SpectrumEngine.Follows.analyseFrame`, `drainFrames`, `process` -- what the loops keep
* `SpectrumEngine.frames_of_calls` -- **Headline.** The frames and the average after any calls
-/

namespace RtaTool

namespace Dsp

/-- `Averaging`. -/
inductive SpectrumAveraging
  | linear
  | exponential
  deriving DecidableEq, Repr

/-- `SpectrumEngine::Config`, without the window type. -/
structure SpectrumConfig where
  fftSize : ℕ := 4096
  hopSize : ℕ := 2048
  sampleRate : ℚ := 48000
  averaging : SpectrumAveraging := .linear
  timeConstantSeconds : ℚ := 1 / 2
  deriving DecidableEq, Repr

/-- What the engine throws; `member` is what its window, its transform or its ring throws. -/
inductive SpectrumError
  | member (error : DualFftError)
  | hopSize
  | sampleRate
  | timeConstant
  | cannotDrain
  | shortFrame
  | outOfFuel
  deriving DecidableEq, Repr

/-- `what()`. -/
def SpectrumError.what : SpectrumError → String
  | .member error => error.what
  | .hopSize => "SpectrumEngine hopSize must be within 1..fftSize"
  | .sampleRate => "SpectrumEngine sampleRate must be positive"
  | .timeConstant => "SpectrumEngine timeConstantSeconds must be positive"
  | .cannotDrain => "SpectrumEngine accumulator cannot drain"
  | .shortFrame => "SpectrumEngine read a short frame"
  | .outOfFuel => ""

/-- `SpectrumEngine`. -/
structure SpectrumEngine (K : Type) where
  config : SpectrumConfig
  window : List K
  densityScale : K
  enbwHz : K
  alpha : K
  pending : RingBuffer K
  accumulator : ℕ → K
  density : ℕ → K
  spectrum : ℕ → K
  frameCount : ℕ := 0
  frames : List (List K) := []

/-- A part of the constructor that another class throws from. -/
def ofMember {α : Type} (x : Except DualFftError α) : Except SpectrumError α :=
  x.mapError .member

/-- The checks of the constructor's body. -/
def SpectrumConfig.validate (config : SpectrumConfig) : Except SpectrumError Unit :=
  if config.hopSize = 0 ∨ config.fftSize < config.hopSize then .error .hopSize
  else if ¬0 < config.sampleRate then .error .sampleRate
  else if config.averaging = .exponential ∧ ¬0 < config.timeConstantSeconds then
    .error .timeConstant
  else .ok ()

/-- `fft_.numBins()`. -/
def SpectrumConfig.numBins (config : SpectrumConfig) : ℕ := config.fftSize / 2 + 1

variable {K : Type} [Field K]

namespace SpectrumEngine

/-- The constructor. The coefficients of the window are given. -/
def make [Inhabited K] (exp : K → K) (config : SpectrumConfig) (window : List K) :
    Except SpectrumError (SpectrumEngine K) := do
  ofMember (checkFftSize config.fftSize)
  let pending ← ofMember (makeRing (bufferCapacity config.fftSize 0))
  config.validate
  let hopSeconds : K := config.hopSize / config.sampleRate
  return {
    config := config
    window := window
    densityScale := psdScale config.sampleRate (sumSquares window)
    enbwHz := config.sampleRate * sumSquares window / (window.sum * window.sum)
    alpha := 1 - exp (-hopSeconds / config.timeConstantSeconds)
    pending := pending
    accumulator := fun _ => 0
    density := fun _ => 0
    spectrum := fun _ => 0 }

variable (trig : Trig K)

/-- `psd`, of a frame at a bin. -/
def framePsd (config : SpectrumConfig) (window : List K) (densityScale : K) (k : ℕ)
    (frame : List K) : K :=
  let magnitudeSquared := (frameBin trig config.fftSize window frame k).norm
  magnitudeSquared * densityScale * binFactor k config.numBins

/-- What a frame makes of an accumulator, with `frameCount_` as it stands after the increment. -/
def average (averaging : SpectrumAveraging) (alpha : K) (frameCount : ℕ) (held psd : K) : K :=
  if frameCount = 1 then psd
  else if averaging = .linear then held + (psd - held) / frameCount
  else held + alpha * (psd - held)

/-- `analyseFrame()`. A turn of its loop reads and writes one bin. -/
def analyseFrame (e : SpectrumEngine K) (frame : List K) : SpectrumEngine K :=
  let frameCount := e.frameCount + 1
  let accumulator := fun k =>
    if k < e.config.numBins then
      average e.config.averaging e.alpha frameCount (e.accumulator k)
        (framePsd trig e.config e.window e.densityScale k frame)
    else e.accumulator k
  { e with
    frameCount := frameCount
    accumulator := accumulator
    density := fun k => if k < e.config.numBins then accumulator k else e.density k
    spectrum := fun k => if k < e.config.numBins then accumulator k * e.enbwHz else e.spectrum k
    frames := e.frames ++ [frame] }

/-- A turn of the loop of `drainFrames`: a frame is analysed, a hop discarded. -/
def takeFrame (e : SpectrumEngine K) : SpectrumEngine K :=
  { e with pending := (e.pending.discard e.config.hopSize).2 }.analyseFrame trig
    (e.pending.peek e.config.fftSize 0)

/-- The loop of `drainFrames`. -/
def drainFramesFrom : ℕ → SpectrumEngine K → Except SpectrumError (SpectrumEngine K)
  | 0, _ => .error .outOfFuel
  | fuel + 1, e =>
    if e.config.fftSize ≤ e.pending.availableToRead.toNat then
      if (e.pending.peek e.config.fftSize 0).length ≠ e.config.fftSize then .error .shortFrame
      else drainFramesFrom fuel (e.takeFrame trig)
    else .ok e

/-- `drainFrames()`. -/
def drainFrames (e : SpectrumEngine K) : Except SpectrumError (SpectrumEngine K) :=
  drainFramesFrom trig (e.pending.availableToRead.toNat + 1) e

/-- `pending_.write(samples)`. -/
def write (e : SpectrumEngine K) (samples : List K) : SpectrumEngine K :=
  { e with pending := (e.pending.write samples).2 }

/-- The loop of `process`, with what is left of the span. -/
def processFrom : ℕ → SpectrumEngine K → List K → Except SpectrumError (SpectrumEngine K)
  | 0, e, samples => if samples.length = 0 then .ok e else .error .outOfFuel
  | fuel + 1, e, samples =>
    if samples.length = 0 then .ok e
    else
      let room := e.pending.availableToWrite.toNat
      if room = 0 then do
        let drained ← e.drainFrames trig
        if drained.pending.availableToWrite.toNat = 0 then throw .cannotDrain
        processFrom fuel drained samples
      else do
        let count := min room samples.length
        let drained ← (e.write (samples.take count)).drainFrames trig
        processFrom fuel drained (samples.drop count)

/-- `process(samples)`. Between two turns that write there is at most one that only drains. -/
def process (e : SpectrumEngine K) (samples : List K) : Except SpectrumError (SpectrumEngine K) :=
  processFrom trig (2 * samples.length) e samples

/-- `reset()`. -/
def reset (e : SpectrumEngine K) : SpectrumEngine K :=
  { e with
    pending := e.pending.reset
    accumulator := fun _ => 0
    density := fun _ => 0
    spectrum := fun _ => 0
    frameCount := 0
    frames := [] }

end SpectrumEngine

/-- A call: a span of samples, or a reset. -/
inductive SpectrumCall (K : Type)
  | process (samples : List K)
  | reset

/-- The samples that an engine has been given since its last reset. -/
def SpectrumCall.extend (stream : List K) : SpectrumCall K → List K
  | .process samples => stream ++ samples
  | .reset => []

namespace SpectrumEngine

/-- A call of an engine. -/
def call (trig : Trig K) (e : SpectrumEngine K) :
    SpectrumCall K → Except SpectrumError (SpectrumEngine K)
  | .process samples => e.process trig samples
  | .reset => .ok e.reset

/-- One call after another. -/
def run (trig : Trig K) (e : SpectrumEngine K) (calls : List (SpectrumCall K)) :
    Except SpectrumError (SpectrumEngine K) :=
  calls.foldlM (call trig) e

/-! ### The invariant -/

/-- What the constructor computes once. -/
structure SameSetup (e t : SpectrumEngine K) : Prop where
  config : t.config = e.config
  window : t.window = e.window
  densityScale : t.densityScale = e.densityScale
  enbwHz : t.enbwHz = e.enbwHz
  alpha : t.alpha = e.alpha

/-- The mean of a sequence that each mode stands for. -/
def meanOf (averaging : SpectrumAveraging) (alpha : K) (xs : List K) : K :=
  if averaging = .linear then listMean K xs else smoothedMean alpha xs

/-- The engine made as `e₀` after the stream given. -/
structure Follows (trig : Trig K) (e₀ e : SpectrumEngine K) (stream : List K) : Prop where
  setup : SameSetup e₀ e
  pending : e.pending.Holding (stream.drop (e.frames.length * e₀.config.hopSize))
  room : e₀.config.fftSize * 4 ≤ e.pending.capacity
  frameCount : e.frameCount = e.frames.length
  frames : ∀ j < e.frames.length,
    e.frames[j]? = some (frameAt e₀.config.hopSize e₀.config.fftSize stream j)
  fits : ∀ j < e.frames.length,
    j * e₀.config.hopSize + e₀.config.fftSize ≤ stream.length
  accumulator : ∀ k < e₀.config.numBins,
    e.accumulator k = meanOf e₀.config.averaging e₀.alpha
      (e.frames.map (framePsd trig e₀.config e₀.window e₀.densityScale k))
  density : ∀ k < e₀.config.numBins, e.density k = e.accumulator k
  spectrum : ∀ k < e₀.config.numBins, e.spectrum k = e.accumulator k * e₀.enbwHz

/-- The ring has less than a frame. -/
def Settled (e₀ e : SpectrumEngine K) (stream : List K) : Prop :=
  stream.length < e.frames.length * e₀.config.hopSize + e₀.config.fftSize

/-- One more frame. -/
theorem average_meanOf [CharZero K] (averaging : SpectrumAveraging) (alpha : K) (xs : List K)
    (x : K) :
    average averaging alpha (xs.length + 1) (meanOf averaging alpha xs) x =
      meanOf averaging alpha (xs ++ [x]) := by
  rw [average, meanOf, meanOf, smoothedMean_concat, listMean_concat, div_eq_inv_mul]
  by_cases hnil : xs = []
  · subst hnil
    simp [listMean, smoothedMean]
  · have hlength : xs.length ≠ 0 := fun h => hnil (List.length_eq_zero_iff.mp h)
    rw [if_neg (by omega), if_neg hlength]
    split
    · rw [smul_eq_mul]
    · rw [smooth, smul_eq_mul]

namespace Follows

variable {trig : Trig K} {e₀ e : SpectrumEngine K} {stream : List K}

theorem takeFrame [CharZero K] (h : Follows trig e₀ e stream)
    (hfits : e.frames.length * e₀.config.hopSize + e₀.config.fftSize ≤ stream.length) :
    Follows trig e₀ (e.takeFrame trig) stream := by
  have hlength : (e.takeFrame trig).frames.length = e.frames.length + 1 := List.length_append
  have hlt : ∀ j < (e.takeFrame trig).frames.length, j < e.frames.length ∨ j = e.frames.length := by
    intro j hj
    omega
  have hpeek : e.pending.peek e.config.fftSize 0 =
      frameAt e₀.config.hopSize e₀.config.fftSize stream e.frames.length := by
    rw [h.setup.config, h.pending.peek]
    rfl
  have hdiscard := h.pending.discard e.config.hopSize
  have haccumulator : ∀ k < e₀.config.numBins, (e.takeFrame trig).accumulator k =
      meanOf e₀.config.averaging e₀.alpha ((e.takeFrame trig).frames.map
        (framePsd trig e₀.config e₀.window e₀.densityScale k)) := by
    intro k hk
    show (if k < e.config.numBins then average e.config.averaging e.alpha (e.frameCount + 1)
        (e.accumulator k) (framePsd trig e.config e.window e.densityScale k
          (e.pending.peek e.config.fftSize 0)) else e.accumulator k) =
      meanOf e₀.config.averaging e₀.alpha ((e.frames ++ [e.pending.peek e.config.fftSize 0]).map
        (framePsd trig e₀.config e₀.window e₀.densityScale k))
    rw [h.setup.config, h.setup.alpha, h.setup.window, h.setup.densityScale, if_pos hk,
      h.accumulator k hk, h.frameCount, List.map_append, List.map_singleton, ← average_meanOf,
      List.length_map]
  refine
    { setup := ⟨h.setup.config, h.setup.window, h.setup.densityScale, h.setup.enbwHz,
        h.setup.alpha⟩
      pending := ?_
      room := h.room
      frameCount := (congrArg (· + 1) h.frameCount).trans hlength.symm
      frames := ?_
      fits := ?_
      accumulator := haccumulator
      density := fun k hk => if_pos (h.setup.config.symm ▸ hk)
      spectrum := fun k hk => ?_ }
  · have hheld := hdiscard.1
    rw [List.drop_drop, h.setup.config, ← Nat.succ_mul] at hheld
    rw [hlength]
    exact h.setup.config ▸ hheld
  · intro j hj
    show (e.frames ++ [_])[j]? = _
    rcases hlt j hj with hj | rfl
    · rw [List.getElem?_append_left hj]
      exact h.frames j hj
    · rw [List.getElem?_append_right le_rfl, Nat.sub_self, hpeek]
      rfl
  · intro j hj
    rcases hlt j hj with hj | rfl
    · exact h.fits j hj
    · exact hfits
  · rw [← h.setup.enbwHz]
    exact if_pos (h.setup.config.symm ▸ hk)

theorem available (h : Follows trig e₀ e stream) : e.pending.availableToRead.toNat =
    stream.length - e.frames.length * e₀.config.hopSize := by
  rw [h.pending.availableToRead, List.length_drop]

theorem drainFramesFrom [CharZero K] (hhop : 0 < e₀.config.hopSize) {fuel : ℕ} :
    ∀ {e : SpectrumEngine K}, Follows trig e₀ e stream → e₀.config.hopSize ≤ e₀.config.fftSize →
      e.pending.availableToRead.toNat < fuel →
      ∃ t, SpectrumEngine.drainFramesFrom trig fuel e = .ok t ∧ Follows trig e₀ t stream ∧
        Settled e₀ t stream := by
  induction fuel with
  | zero => exact fun _ _ hfuel => absurd hfuel (Nat.not_lt_zero _)
  | succ fuel ih =>
    intro e h hle hfuel
    have havailable := h.available
    rw [SpectrumEngine.drainFramesFrom, h.setup.config]
    split
    · rename_i hframe
      have hfits : e.frames.length * e₀.config.hopSize + e₀.config.fftSize ≤ stream.length := by
        omega
      have hnotShort : ¬(e.pending.peek e₀.config.fftSize 0).length ≠ e₀.config.fftSize := by
        rw [h.pending.peek, List.length_take, List.length_drop]
        omega
      rw [if_neg hnotShort]
      refine ih (h.takeFrame hfits) hle ?_
      have hdiscarded := (h.pending.discard e.config.hopSize).1.availableToRead
      show (e.pending.discard e.config.hopSize).2.availableToRead.toNat < fuel
      rw [hdiscarded, List.length_drop, List.length_drop, h.setup.config]
      omega
    · rename_i hshort
      refine ⟨e, rfl, h, ?_⟩
      rw [Settled]
      omega

section

variable (hhop : 0 < e₀.config.hopSize) (hle : e₀.config.hopSize ≤ e₀.config.fftSize)

include hhop hle

/-- `drainFrames` returns, and leaves less than a frame. -/
theorem drainFrames [CharZero K] (h : Follows trig e₀ e stream) :
    ∃ t, e.drainFrames trig = .ok t ∧ Follows trig e₀ t stream ∧ Settled e₀ t stream :=
  h.drainFramesFrom hhop hle (Nat.lt_succ_self _)

omit hhop hle in
/-- The frames analysed so far are frames of the longer stream too. -/
theorem write (hle : e₀.config.hopSize ≤ e₀.config.fftSize) (h : Follows trig e₀ e stream)
    {samples : List K} (hroom : samples.length ≤ e.pending.availableToWrite.toNat) :
    Follows trig e₀ (e.write samples) (stream ++ samples) := by
  have htaken : e.frames.length * e₀.config.hopSize ≤ stream.length := mul_hop_le hle h.fits
  have hheld := h.pending.length_le
  rw [h.pending.availableToWrite] at hroom
  have hfits : (stream.drop (e.frames.length * e₀.config.hopSize)).length + samples.length ≤
      e.pending.capacity := by
    omega
  obtain ⟨hwritten, hcapacity⟩ := h.pending.write hfits
  refine
    { setup := ⟨h.setup.config, h.setup.window, h.setup.densityScale, h.setup.enbwHz,
        h.setup.alpha⟩
      pending := ?_
      room := hcapacity.symm ▸ h.room
      frameCount := h.frameCount
      frames := ?_
      fits := ?_
      accumulator := h.accumulator
      density := h.density
      spectrum := h.spectrum }
  · show (e.pending.write samples).2.Holding
      ((stream ++ samples).drop (e.frames.length * e₀.config.hopSize))
    rwa [List.drop_append_of_le_length htaken]
  · intro j hj
    rw [frameAt_append (h.fits j hj)]
    exact h.frames j hj
  · intro j hj
    rw [List.length_append]
    exact Nat.le_add_right_of_le (h.fits j hj)

theorem processFrom [CharZero K] {fuel : ℕ} :
    ∀ {e : SpectrumEngine K} {stream samples : List K}, Follows trig e₀ e stream →
      Settled e₀ e stream → samples.length ≤ fuel →
      ∃ t, SpectrumEngine.processFrom trig fuel e samples = .ok t ∧
        Follows trig e₀ t (stream ++ samples) ∧ Settled e₀ t (stream ++ samples) := by
  induction fuel with
  | zero =>
    intro e stream samples h hsettled hfuel
    obtain rfl := List.length_eq_zero_iff.mp (Nat.le_zero.mp hfuel)
    rw [List.append_nil]
    exact ⟨e, rfl, h, hsettled⟩
  | succ fuel ih =>
    intro e stream samples h hsettled hfuel
    rw [SpectrumEngine.processFrom]
    split
    · rename_i hnone
      obtain rfl := List.length_eq_zero_iff.mp hnone
      rw [List.append_nil]
      exact ⟨e, rfl, h, hsettled⟩
    · rename_i hsome
      -- less than a frame is held, in a ring of four
      have hroom : 0 < e.pending.availableToWrite.toNat := by
        have hcapacity := h.room
        rw [Settled] at hsettled
        rw [h.pending.availableToWrite, List.length_drop]
        omega
      set count := min e.pending.availableToWrite.toNat samples.length with hcount
      have hwritten : Follows trig e₀ (e.write (samples.take count)) (stream ++ samples.take count) :=
        h.write hle (by rw [List.length_take]; omega)
      obtain ⟨drained, hdrain, hfollows, hsettled'⟩ := hwritten.drainFrames hhop hle
      have hshorter : (samples.drop count).length ≤ fuel := by
        rw [List.length_drop]
        omega
      have hrest := ih hfollows hsettled' hshorter
      rw [List.append_assoc, List.take_append_drop] at hrest
      dsimp only
      rw [if_neg hroom.ne', hdrain]
      exact hrest

/-- A call of `process` returns, with the stream that much longer. -/
theorem process [CharZero K] (h : Follows trig e₀ e stream)
    (hsettled : Settled e₀ e stream) (samples : List K) :
    ∃ t, e.process trig samples = .ok t ∧ Follows trig e₀ t (stream ++ samples) ∧
      Settled e₀ t (stream ++ samples) :=
  h.processFrom hhop hle hsettled (Nat.le_mul_of_pos_left _ (by decide))

omit hhop hle in
/-- Before the first sample, whatever the ring has been used for. -/
theorem nil {e : SpectrumEngine K} (hsetup : SameSetup e₀ e) (hpending : e.pending.Holding [])
    (hroom : e₀.config.fftSize * 4 ≤ e.pending.capacity) (hcount : e.frameCount = 0)
    (hframes : e.frames = []) (haccumulator : e.accumulator = fun _ => 0)
    (hdensity : e.density = fun _ => 0) (hspectrum : e.spectrum = fun _ => 0) :
    Follows trig e₀ e [] := by
  have hnone : e.frames.length = 0 := congrArg List.length hframes
  refine
    { setup := hsetup
      pending := ?_
      room := hroom
      frameCount := hcount.trans hnone.symm
      frames := ?_
      fits := ?_
      accumulator := fun k _ => ?_
      density := fun k _ => ?_
      spectrum := fun k _ => ?_ }
  · rw [List.drop_nil]
    exact hpending
  · intro j hj
    omega
  · intro j hj
    omega
  · rw [haccumulator, hframes, List.map_nil, meanOf, listMean_nil, smoothedMean, ite_self]
  · rw [hdensity, haccumulator]
  · rw [hspectrum, haccumulator, zero_mul]

omit hhop hle in
theorem reset (h : Follows trig e₀ e stream) : Follows trig e₀ e.reset [] :=
  .nil ⟨h.setup.config, h.setup.window, h.setup.densityScale, h.setup.enbwHz, h.setup.alpha⟩
    (.reset e.pending) h.room rfl rfl rfl rfl rfl

theorem call [CharZero K] (h : Follows trig e₀ e stream)
    (hsettled : Settled e₀ e stream) (c : SpectrumCall K) :
    ∃ t, SpectrumEngine.call trig e c = .ok t ∧ Follows trig e₀ t (SpectrumCall.extend stream c) ∧
      Settled e₀ t (SpectrumCall.extend stream c) := by
  cases c with
  | process samples => exact h.process hhop hle hsettled samples
  | reset =>
    refine ⟨e.reset, rfl, h.reset, ?_⟩
    rw [SpectrumCall.extend, Settled, List.length_nil]
    omega

theorem run [CharZero K] (calls : List (SpectrumCall K)) :
    ∀ {e : SpectrumEngine K} {stream : List K}, Follows trig e₀ e stream → Settled e₀ e stream →
      ∃ t, SpectrumEngine.run trig e calls = .ok t ∧
        Follows trig e₀ t (calls.foldl SpectrumCall.extend stream) ∧
        Settled e₀ t (calls.foldl SpectrumCall.extend stream) := by
  induction calls with
  | nil => exact fun {e} _ h hsettled => ⟨e, rfl, h, hsettled⟩
  | cons c calls ih =>
    intro e stream h hsettled
    obtain ⟨e₁, hcall, h₁, hsettled₁⟩ := h.call hhop hle hsettled c
    obtain ⟨t, hrun, ht⟩ := ih h₁ hsettled₁
    refine ⟨t, ?_, ht⟩
    rw [SpectrumEngine.run, List.foldlM_cons, hcall]
    exact hrun

end

end Follows

theorem mapError_eq_ok {α : Type} {x : Except DualFftError α} {a : α} (h : ofMember x = .ok a) :
    x = .ok a := by
  cases x with
  | error error => cases h
  | ok b => exact congrArg Except.ok (Except.ok.inj h)

/-- What the constructor lets through, and what it makes of it. -/
theorem follows_of_make [Inhabited K] {exp : K → K} {config : SpectrumConfig} {window : List K}
    {e : SpectrumEngine K} (trig : Trig K) (hmake : make exp config window = .ok e) :
    e.config = config ∧ 0 < config.hopSize ∧ config.hopSize ≤ config.fftSize ∧
      Follows trig e e [] ∧ Settled e e [] := by
  rw [make] at hmake
  obtain ⟨⟨⟩, hsize, hmake⟩ := DualFftEngine.ok_of_bind hmake
  obtain ⟨pending, hpending, hmake⟩ := DualFftEngine.ok_of_bind hmake
  obtain ⟨⟨⟩, hvalid, hmake⟩ := DualFftEngine.ok_of_bind hmake
  obtain ⟨rfl⟩ := hmake
  obtain ⟨hhop, hle⟩ : 0 < config.hopSize ∧ config.hopSize ≤ config.fftSize := by
    rw [SpectrumConfig.validate] at hvalid
    split at hvalid
    · cases hvalid
    · rename_i hhop
      omega
  obtain ⟨hempty, hroom⟩ := DualFftEngine.holding_of_makeRing (mapError_eq_ok hpending)
  have hcapacity : config.fftSize * 4 ≤ bufferCapacity config.fftSize 0 :=
    DualFftEngine.le_bufferCapacity
      (DualFftEngine.le_maxFloats_of_fftSize (mapError_eq_ok hsize)) (Nat.zero_le _)
  refine ⟨rfl, hhop, hle, ?_, ?_⟩
  · exact .nil ⟨rfl, rfl, rfl, rfl, rfl⟩ hempty (hcapacity.trans hroom) rfl rfl rfl rfl rfl
  · show 0 < 0 * config.hopSize + config.fftSize
    omega

/-- **Headline.** However the stream is cut into calls, every call returns, the frames since the
last `reset` are the complete ones, each once and in order, and in linear mode what is held is the
arithmetic mean of their spectra. -/
theorem frames_of_calls [Inhabited K] [CharZero K] {exp : K → K} {config : SpectrumConfig}
    {window : List K} {e : SpectrumEngine K} (trig : Trig K)
    (hmake : make exp config window = .ok e) (calls : List (SpectrumCall K)) :
    ∃ t, e.run trig calls = .ok t ∧
      (∀ j, t.frames[j]? =
        if j * config.hopSize + config.fftSize ≤ (calls.foldl SpectrumCall.extend []).length then
          some (((calls.foldl SpectrumCall.extend []).drop (j * config.hopSize)).take
            config.fftSize)
        else none) ∧
      (config.averaging = .linear → ∀ k < config.numBins,
        t.accumulator k =
          listMean K (t.frames.map (framePsd trig config e.window e.densityScale k)) ∧
        t.density k =
          listMean K (t.frames.map (framePsd trig config e.window e.densityScale k)) ∧
        t.spectrum k = listMean K (t.frames.map fun frame =>
          framePsd trig config e.window e.densityScale k frame * e.enbwHz)) := by
  obtain ⟨rfl, hhop, hle, hfollows, hsettled⟩ := follows_of_make trig hmake
  obtain ⟨t, hrun, h, hdone⟩ := hfollows.run hhop hle calls hsettled
  refine ⟨t, hrun, fun j => ?_, fun hlinear k hk => ?_⟩
  · have hcomplete := complete_of_fits h.fits hdone j
    split
    · rename_i hfits
      exact h.frames j (hcomplete.mpr hfits)
    · rename_i hshort
      rw [List.getElem?_eq_none_iff, ← Nat.not_lt, hcomplete]
      exact hshort
  · have hmean := h.accumulator k hk
    rw [meanOf, if_pos hlinear] at hmean
    refine ⟨hmean, (h.density k hk).trans hmean, ?_⟩
    have hscale := listMean_map (LinearMap.mulRight K e.enbwHz)
      (t.frames.map (framePsd trig e.config e.window e.densityScale k))
    rw [List.map_map] at hscale
    rw [h.spectrum k hk, hmean]
    exact hscale.symm

theorem exists_pending [Inhabited K] {fftSize : ℕ} (hroom : fftSize * 4 ≤ 2 ^ 58) :
    ∃ ring : RingBuffer K, makeRing (bufferCapacity fftSize 0) = .ok ring := by
  have hcapacity : bufferCapacity fftSize 0 ≤ 2 ^ 58 :=
    RingBuffer.nextPowerOfTwo_le (max_le ((Nat.mod_le _ _).trans hroom) (by decide))
  have hpos : 4096 ≤ bufferCapacity fftSize 0 :=
    (Nat.le_max_right _ _).trans (RingBuffer.le_nextPowerOfTwo _)
  exact DualFftEngine.exists_makeRing (by omega) (hcapacity.trans (by decide))

/-- A stream in two calls that cut the first frame, after a third that a reset undoes. -/
theorem frames_of_calls_overlap : ∃ e t : SpectrumEngine ℝ,
    make Real.exp { fftSize := 4, hopSize := 2 } [1, 1, 1, 1] = .ok e ∧
    e.run realTrig [.process [9, 9], .reset, .process [1, 2, 3], .process [4, 5, 6, 7]] = .ok t ∧
    t.frames = [[1, 2, 3, 4], [3, 4, 5, 6]] := by
  obtain ⟨e, hmake⟩ : ∃ e : SpectrumEngine ℝ,
      make Real.exp { fftSize := 4, hopSize := 2 } [1, 1, 1, 1] = .ok e := by
    obtain ⟨ring, hring⟩ := exists_pending (K := ℝ) (show 4 * 4 ≤ 2 ^ 58 by decide)
    rw [make, hring]
    exact ⟨_, rfl⟩
  obtain ⟨t, hrun, hframes, -⟩ := frames_of_calls realTrig hmake
    [.process [9, 9], .reset, .process [1, 2, 3], .process [4, 5, 6, 7]]
  refine ⟨e, t, hmake, hrun, List.ext_getElem? fun j => (hframes j).trans ?_⟩
  match j with
  | 0 => rfl
  | 1 => rfl
  | j + 2 => exact if_neg (by
      simp [SpectrumCall.extend]
      omega)

end SpectrumEngine

end Dsp

end RtaTool
