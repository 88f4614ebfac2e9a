import RtaTool.Dsp.TransferAverages
import RtaTool.Lib.SemidefiniteCone

/-!
# The averaged spectra after any calls

The invariant of a bin goes from one frame to the next, from the frames of a call to the engine
after it, and from there along any sequence of calls. What a mean is then is a function of the
frame pairs since the last reset, and nothing is left of how it was kept.

## Main definitions

* `TransferEngine.Bins`, `TransferEngine.Valid` -- the invariant of an engine

## Main results

* `TransferEngine.Bins.analyseFramePair`, `TransferEngine.Valid.call`, `TransferEngine.Valid.run`
* `valid_of_make` -- what the constructor makes
* `fifo_means_of_run` -- **Headline.** The means in FIFO mode after any sequence of calls
-/

namespace RtaTool

open DualFftEngine

variable {config : DualFftConfig}

theorem framePair_append {Sample : Type} {stream : List (Sample × Sample)}
    {j : ℕ} {pair : List Sample × List Sample} (h : framePair config stream j = some pair)
    (span : List (Sample × Sample)) : framePair config (stream ++ span) j = some pair := by
  rw [framePair] at h ⊢
  split at h
  · rename_i hfits
    obtain ⟨rfl⟩ := h
    have hkeep : ∀ (f : Sample × Sample → Sample) {lead : ℕ},
        lead + config.fftSize ≤ stream.length →
        (((stream ++ span).map f).drop lead).take config.fftSize =
          ((stream.map f).drop lead).take config.fftSize := by
      intro f lead hlead
      rw [List.map_append, List.drop_append_of_le_length (by rw [List.length_map]; omega),
        List.take_append_of_le_length (by rw [List.length_drop, List.length_map]; omega)]
    rw [if_pos (by rw [List.length_append]; omega), hkeep _ hfits.1, hkeep _ hfits.2]
  · cases h

theorem validate_eq_ok (h : config.validate = .ok ()) :
    0 < config.sampleRate ∧ (config.averaging = .fifo → 0 < config.fifoDepth) ∧
      (config.averaging = .exponential → 0 < config.timeConstantSeconds) := by
  rw [DualFftConfig.validate] at h
  split at h
  · cases h
  dsimp only at h
  split at h
  · cases h
  rename_i hrate
  split at h
  · cases h
  rename_i hdepth
  split at h
  · cases h
  rename_i htime
  refine ⟨not_not.mp hrate, fun hfifo => ?_, fun hexp => ?_⟩
  · exact Nat.pos_of_ne_zero fun hzero => hdepth ⟨hfifo, hzero⟩
  · exact not_not.mp fun hneg => htime ⟨hexp, hneg⟩

theorem validate_of_make {Sample : Type} [Inhabited Sample]
    {e : DualFftEngine Sample} (h : DualFftEngine.make config = .ok e) :
    config.validate = .ok () := by
  rw [DualFftEngine.make] at h
  obtain ⟨_, -, h⟩ := ok_of_bind h
  obtain ⟨_, -, h⟩ := ok_of_bind h
  obtain ⟨_, -, h⟩ := ok_of_bind h
  obtain ⟨_, -, h⟩ := ok_of_bind h
  obtain ⟨⟨⟩, hvalid, -⟩ := ok_of_bind h
  exact hvalid

namespace Dsp

variable {K : Type} [Field K]

/-! ### The bins of a frame -/

theorem SpectrumAverage.BinHolds.accumulateAll {V : Type} [AddCommGroup V] [Module K V]
    {config : DualFftConfig} {alpha : K} {bins frameCount : ℕ} {a : SpectrumAverage V}
    (hdepth : config.averaging = .fifo → 0 < config.fifoDepth) {xs : ℕ → List V}
    (hcount : ∀ k < bins, (xs k).length + 1 = frameCount) (x : ℕ → V)
    (h : ∀ k < bins, BinHolds config alpha bins a k (xs k)) :
    ∀ k < bins, BinHolds config alpha bins
      ((List.range bins).foldl (fun a k => a.accumulate config alpha bins frameCount k (x k)) a) k
      (xs k ++ [x k]) := by
  have hloop := foldl_range_invariant
    (fun i a => ∀ k < bins, BinHolds config alpha bins a k (if k < i then xs k ++ [x k] else xs k))
    (f := fun a k => a.accumulate config alpha bins frameCount k (x k)) (s := a) (n := bins)
    (fun k hk => by
      rw [if_neg (Nat.not_lt_zero k)]
      exact h k hk)
    (fun i hi t ht k hk => by
      have hbefore := ht k hk
      rcases Nat.lt_trichotomy k i with hlt | rfl | hgt
      · rw [if_pos hlt] at hbefore
        rw [if_pos (Nat.lt_succ_of_lt hlt)]
        exact hbefore.accumulate_of_ne hk hi hlt.ne _ _
      · rw [if_neg (Nat.lt_irrefl k)] at hbefore
        rw [if_pos (Nat.lt_succ_self k), ← hcount k hk]
        exact hbefore.accumulate hk hdepth _
      · rw [if_neg hgt.not_gt] at hbefore
        rw [if_neg (by omega)]
        exact hbefore.accumulate_of_ne hk hi hgt.ne' _ _)
  intro k hk
  have hbin := hloop k hk
  rwa [if_pos hk] at hbin

namespace TransferEngine

/-- The loop does to each of the three spectra what it does to one. -/
theorem foldl_accumulate (e : TransferEngine K) (frameCount n : ℕ) (x : ℕ → K × K × Cplx K) :
    (List.range n).foldl (fun acc k => acc.accumulate frameCount k (x k)) e =
      { e with
        sxx := (List.range n).foldl (fun a k => a.accumulate e.streams.config e.scales.alpha
          (numBins e.streams.config) frameCount k (x k).1) e.sxx
        syy := (List.range n).foldl (fun a k => a.accumulate e.streams.config e.scales.alpha
          (numBins e.streams.config) frameCount k (x k).2.1) e.syy
        sxy := (List.range n).foldl (fun a k => a.accumulate e.streams.config e.scales.alpha
          (numBins e.streams.config) frameCount k (x k).2.2) e.sxy } := by
  induction n with
  | zero => rfl
  | succ n ih =>
    simp only [List.range_succ, List.foldl_append, ih]
    rfl

/-- The bins of an engine after the frame pairs given. -/
structure Bins (trig : Trig K) (config : DualFftConfig) (scales : TransferScales K)
    (e : TransferEngine K) (pairs : List (List K × List K)) : Prop where
  sxx : ∀ k < numBins config, e.sxx.BinHolds config scales.alpha (numBins config) k
    (pairs.map fun pair => (binSpectra trig config scales k pair).1)
  syy : ∀ k < numBins config, e.syy.BinHolds config scales.alpha (numBins config) k
    (pairs.map fun pair => (binSpectra trig config scales k pair).2.1)
  sxy : ∀ k < numBins config, e.sxy.BinHolds config scales.alpha (numBins config) k
    (pairs.map fun pair => (binSpectra trig config scales k pair).2.2)

namespace Bins

variable {trig : Trig K} {config : DualFftConfig} {scales : TransferScales K}
  {e : TransferEngine K} {pairs : List (List K × List K)}

theorem analyseFramePair (hdepth : config.averaging = .fifo → 0 < config.fifoDepth)
    (hconfig : e.streams.config = config) (hscales : e.scales = scales)
    (h : Bins trig config scales e pairs) (pair : List K × List K) :
    Bins trig config scales (e.analyseFramePair trig (pairs.length + 1) pair) (pairs ++ [pair]) ∧
      (e.analyseFramePair trig (pairs.length + 1) pair).streams = e.streams ∧
      (e.analyseFramePair trig (pairs.length + 1) pair).scales = e.scales := by
  obtain ⟨rfl⟩ := hconfig
  obtain ⟨rfl⟩ := hscales
  rw [TransferEngine.analyseFramePair, foldl_accumulate]
  refine ⟨⟨?_, ?_, ?_⟩, rfl, rfl⟩
  · simp only [List.map_append, List.map_singleton]
    exact .accumulateAll hdepth (fun k _ => by rw [List.length_map]) _ h.sxx
  · simp only [List.map_append, List.map_singleton]
    exact .accumulateAll hdepth (fun k _ => by rw [List.length_map]) _ h.syy
  · simp only [List.map_append, List.map_singleton]
    exact .accumulateAll hdepth (fun k _ => by rw [List.length_map]) _ h.sxy

theorem analyseFramePairs (hdepth : config.averaging = .fifo → 0 < config.fifoDepth)
    (new : List (List K × List K)) :
    ∀ {e : TransferEngine K} {pairs : List (List K × List K)}, e.streams.config = config →
      e.scales = scales → Bins trig config scales e pairs →
      Bins trig config scales (e.analyseFramePairs trig pairs.length new) (pairs ++ new) ∧
        (e.analyseFramePairs trig pairs.length new).streams = e.streams ∧
        (e.analyseFramePairs trig pairs.length new).scales = e.scales := by
  induction new with
  | nil =>
    intro e pairs _ _ h
    rw [List.append_nil]
    exact ⟨h, rfl, rfl⟩
  | cons pair new ih =>
    intro e pairs hconfig hscales h
    obtain ⟨hbins, hstreams, hsame⟩ := h.analyseFramePair hdepth hconfig hscales pair
    have hrest := ih ((congrArg DualFftEngine.config hstreams).trans hconfig)
      (hsame.trans hscales) hbins
    rw [List.length_append, List.length_singleton, List.append_assoc, List.singleton_append,
      hstreams, hsame] at hrest
    exact hrest

theorem reset (trig : Trig K) (config : DualFftConfig) (scales : TransferScales K)
    (e : TransferEngine K) (streams : DualFftEngine K) :
    Bins trig config scales { e with
      streams := streams
      sxx := e.sxx.reset
      syy := e.syy.reset
      sxy := e.sxy.reset } [] where
  sxx k _ := .reset config scales.alpha _ k e.sxx
  syy k _ := .reset config scales.alpha _ k e.syy
  sxy k _ := .reset config scales.alpha _ k e.sxy

end Bins

/-! ### Calls -/

/-- An engine after the samples since the last reset. -/
structure Valid (trig : Trig K) (config : DualFftConfig) (scales : TransferScales K)
    (e : TransferEngine K) (stream : List (K × K)) : Prop where
  accepted : Accepted config
  depth_pos : config.averaging = .fifo → 0 < config.fifoDepth
  aligned : AlignedAt config e.streams (stream.map (·.1)) (stream.map (·.2))
  drained : Drained config e.streams (stream.map (·.1)) (stream.map (·.2))
  scales_eq : e.scales = scales
  bins : Bins trig config scales e e.streams.frames

namespace Valid

variable {trig : Trig K} {config : DualFftConfig} {scales : TransferScales K}
  {e : TransferEngine K} {stream : List (K × K)}

theorem getElem?_frames (h : Valid trig config scales e stream) (j : ℕ) :
    e.streams.frames[j]? = framePair config stream j :=
  h.aligned.getElem?_frames h.accepted h.drained j

/-- A call returns, and keeps the invariant of the longer stream. -/
theorem call (h : Valid trig config scales e stream) (c : EngineCall K) :
    ∃ t, e.call trig c = .ok t ∧ Valid trig config scales t (EngineCall.extend stream c) := by
  obtain ⟨streams, hcall, haligned, hdrained⟩ := h.aligned.call h.accepted h.drained c
  cases c with
  | reset =>
    obtain ⟨rfl⟩ := hcall
    exact ⟨_, rfl, h.accepted, h.depth_pos, haligned, hdrained, h.scales_eq,
      .reset trig config scales e _⟩
  | process span =>
    -- the frame pairs of the shorter stream are the first ones of the longer
    have hprefix : e.streams.frames <+: streams.frames := by
      rw [List.prefix_iff_getElem?]
      intro j hj
      have hframe := h.getElem?_frames j
      rw [List.getElem?_eq_getElem hj] at hframe
      exact (haligned.getElem?_frames h.accepted hdrained j).trans
        (framePair_append hframe.symm span)
    obtain ⟨new, hnew⟩ := hprefix
    have hbins : Bins trig config scales { e with streams := streams } e.streams.frames :=
      ⟨h.bins.sxx, h.bins.syy, h.bins.sxy⟩
    obtain ⟨hbins', hstreams, hscales⟩ := Bins.analyseFramePairs h.depth_pos new
      (e := { e with streams := streams }) haligned.config_eq h.scales_eq hbins
    refine ⟨_, ?_, h.accepted, h.depth_pos, ?_, ?_, hscales.trans h.scales_eq, ?_⟩
    rotate_left
    · exact hstreams ▸ haligned
    · exact hstreams ▸ hdrained
    · rw [hstreams]
      rwa [hnew] at hbins'
    · have hdrop : streams.frames.drop e.streams.frames.length = new := by
        rw [← hnew, List.drop_left]
      rw [TransferEngine.call, hcall, h.aligned.frameCount]
      exact congrArg (fun pairs => Except.ok
        ({ e with streams := streams }.analyseFramePairs trig e.streams.frames.length pairs)) hdrop

theorem run (calls : List (EngineCall K)) :
    ∀ {e : TransferEngine K} {stream : List (K × K)}, Valid trig config scales e stream →
      ∃ t, e.run trig calls = .ok t ∧
        Valid trig config scales t (calls.foldl EngineCall.extend stream) := by
  induction calls with
  | nil => exact fun {e} _ h => ⟨e, rfl, h⟩
  | cons c calls ih =>
    intro e stream h
    obtain ⟨e₁, hcall, h₁⟩ := h.call c
    obtain ⟨t, hrun, ht⟩ := ih h₁
    refine ⟨t, ?_, ht⟩
    rw [TransferEngine.run, List.foldlM_cons, hcall]
    exact hrun

end Valid

/-- What the constructor makes, of what it lets through. -/
theorem valid_of_make [Inhabited K] {exp : K → K} {config : DualFftConfig} {window : List K}
    {e : TransferEngine K} (trig : Trig K) (hmake : make exp config window = .ok e) :
    Valid trig config (.make exp config window) e [] ∧ config.validate = .ok () := by
  rw [make] at hmake
  obtain ⟨streams, hstreams, hmake⟩ := ok_of_bind hmake
  obtain ⟨rfl⟩ := hmake
  obtain ⟨haccepted, haligned⟩ := alignedAt_of_make hstreams
  have hvalid := validate_of_make hstreams
  refine ⟨⟨haccepted, (validate_eq_ok hvalid).2.1, haligned, haccepted.drained_nil, rfl, ?_⟩,
    hvalid⟩
  have hframes : streams.frames = [] := by
    by_contra hne
    have hfits := haligned.referenceFits 0 (List.length_pos_iff.mpr hne)
    rw [List.drop_nil, List.length_nil] at hfits
    have hfft : 0 < config.fftSize := Nat.lt_of_lt_of_le haccepted.hop_pos haccepted.hop_le
    omega
  show Bins trig config _ _ streams.frames
  rw [hframes]
  exact ⟨fun k _ => .empty _ _ _ k, fun k _ => .empty _ _ _ k, fun k _ => .empty _ _ _ k⟩

/-- **Headline.** In FIFO mode, after any calls, each averaged spectrum is the arithmetic mean of
the spectra of the last frames since the last reset, as many of them as the depth. -/
theorem fifo_means_of_run [Inhabited K] {exp : K → K} {config : DualFftConfig} {window : List K}
    {e : TransferEngine K} (trig : Trig K) (hfifo : config.averaging = .fifo)
    (hmake : make exp config window = .ok e) (calls : List (EngineCall K)) :
    ∃ t, e.run trig calls = .ok t ∧
      (∀ j, t.streams.frames[j]? = framePair config (sinceReset calls) j) ∧
      t.streams.frameCount = t.streams.frames.length ∧
      ∀ k < numBins config,
        let last := t.streams.frames.rtake (min t.streams.frameCount config.fifoDepth)
        let spectra := last.map (binSpectra trig config (.make exp config window) k)
        t.sxx.mean k = listMean K (spectra.map (·.1)) ∧
          t.syy.mean k = listMean K (spectra.map (·.2.1)) ∧
          t.sxy.mean k = listMean K (spectra.map (·.2.2)) := by
  obtain ⟨t, hrun, ht⟩ := (valid_of_make trig hmake).1.run calls
  refine ⟨t, hrun, ht.getElem?_frames, ht.aligned.frameCount, fun k hk => ?_⟩
  have hlast : ∀ {V : Type} (f : List K × List K → V),
      (t.streams.frames.map f).rtake (min (t.streams.frames.map f).length config.fifoDepth) =
        (t.streams.frames.rtake (min t.streams.frameCount config.fifoDepth)).map f := by
    intro V f
    rw [List.length_map, ht.aligned.frameCount, List.rtake, List.rtake, List.map_drop,
      List.length_map]
  refine ⟨?_, ?_, ?_⟩
  · rw [(ht.bins.sxx k hk).mean, averageOf, if_pos hfifo, hlast, List.map_map]
    rfl
  · rw [(ht.bins.syy k hk).mean, averageOf, if_pos hfifo, hlast, List.map_map]
    rfl
  · rw [(ht.bins.sxy k hk).mean, averageOf, if_pos hfifo, hlast, List.map_map]
    rfl

/-- A configuration whose averages are those of two frames. -/
def twoFrames : DualFftConfig := { fftSize := 4, hopSize := 2, fifoDepth := 2 }

theorem exists_make_twoFrames (exp : ℝ → ℝ) (window : List ℝ) :
    ∃ e : TransferEngine ℝ, make exp twoFrames window = .ok e := by
  have hskip : twoFrames.skipMagnitude = .ok 0 := rfl
  obtain ⟨streams, hstreams⟩ : ∃ streams : DualFftEngine ℝ,
      DualFftEngine.make twoFrames = .ok streams :=
    exists_make rfl hskip (by decide) rfl
  rw [make, hstreams]
  exact ⟨_, rfl⟩

/-- After three frames the mean is that of the second and the third. -/
theorem fifo_means_of_run_two : ∃ e t : TransferEngine ℝ,
    make Real.exp twoFrames [1, 1, 1, 1] = .ok e ∧
    e.run realTrig [.process [(1, 8), (2, 7), (3, 6), (4, 5), (5, 4), (6, 3), (7, 2), (8, 1)]] =
      .ok t ∧
    t.sxx.mean 0 = listMean ℝ
      ([([3, 4, 5, 6], [6, 5, 4, 3]), ([5, 6, 7, 8], [4, 3, 2, 1])].map fun pair =>
        (binSpectra realTrig twoFrames (.make Real.exp twoFrames [1, 1, 1, 1]) 0 pair).1) := by
  obtain ⟨e, hmake⟩ := exists_make_twoFrames Real.exp [1, 1, 1, 1]
  obtain ⟨t, hrun, hframes, hcount, hmeans⟩ := fifo_means_of_run realTrig rfl hmake
    [.process [(1, 8), (2, 7), (3, 6), (4, 5), (5, 4), (6, 3), (7, 2), (8, 1)]]
  have hthree : t.streams.frames = [([1, 2, 3, 4], [8, 7, 6, 5]), ([3, 4, 5, 6], [6, 5, 4, 3]),
      ([5, 6, 7, 8], [4, 3, 2, 1])] := by
    refine List.ext_getElem? fun j => (hframes j).trans ?_
    match j with
    | 0 => rfl
    | 1 => rfl
    | 2 => rfl
    | j + 3 =>
      rw [framePair]
      exact if_neg (by
        simp [sinceReset, EngineCall.extend, twoFrames]
        omega)
  refine ⟨e, t, hmake, hrun, ?_⟩
  rw [(hmeans 0 (by decide)).1, hcount, hthree]
  rfl

end TransferEngine

end Dsp

end RtaTool
