import RtaTool.Lib.Numerals
import Mathlib

/-!
# Where a decay meets the noise

`DecayLundeby.cpp`. The squared response is averaged over blocks; a line is fitted to the late decay
of their levels, from the peak down to the noise; the line meets the noise at a crossing, and from
beyond the crossing the noise is estimated again. The search ends when the crossing has settled, or
after so many rounds; it refuses rather than invent a crossing.

## Main definitions

* `LogFns`, `powerToDb`
* `DecayConfig`, `Crossing`, `findCrossing`
* `Search.Falling` -- the invariant of the rounds

## Main results

* `searchLoop_falling` -- every round that finds a crossing has fitted a falling line
* `findCrossing_spec` -- a crossing lies inside the response and on a falling line
-/

namespace RtaTool

namespace Ir

/-! ### Levels -/

/-- `std::log10`, `std::pow(10.0, x)` and `std::log`. -/
structure LogFns (K : Type*) where
  log10 : K → K
  pow10 : K → K
  log : K → K

/-- The real ones. -/
noncomputable def realLogs : LogFns ℝ :=
  { log10 := Real.logb 10, pow10 := fun x => 10 ^ x, log := Real.log }

variable {K : Type*} [Field K] [LinearOrder K]

/-- `kTiny`, the least positive normal double. -/
def kTiny : K := 1 / 2 ^ 1022

/-- `powerToDb`. -/
def powerToDb (logs : LogFns K) (p : K) : K := 10 * logs.log10 (max p kTiny)

/-! ### Blocks and lines -/

variable [FloorSemiring K]

/-- `blockAverage`: the levels and the centres of the blocks. -/
def blockAverage (x : List K) (window : ℕ) : Option (List K × List K) :=
  let window := if window = 0 then 1 else window
  let blocks := x.length / window
  if blocks < 2 then none
  else
    some
      ((List.range blocks).map fun b => ((x.drop (b * window)).take window).sum / window,
        (List.range blocks).map fun b : ℕ => ((b : K) + 1 / 2) * window)

/-- `leastSquares`: the slope and the intercept. -/
def leastSquares (x y : List K) : Option (K × K) :=
  if x.length < 2 then none
  else
    let n : K := x.length
    let mean := x.sum / n
    let sy := ((x.zip y).map fun p => p.2).sum
    let sxx := (x.map fun v => (v - mean) * (v - mean)).sum
    let sxy := ((x.zip y).map fun p => (p.1 - mean) * p.2).sum
    if sxx < 1 / 10 ^ 12 then none
    else
      let slope := sxy / sxx
      some (slope, sy / n - slope * mean)

/-! ### The search -/

/-- `DecayConfig`. -/
structure DecayConfig (K : Type*) [Field K] where
  intervalsPer10Db : K := 5
  standoffDb : K := 10
  fitRangeDb : K := 20
  noiseMarginDb : K := 10
  maxIterations : ℤ := 30
  convergenceSec : K := 1 / 100
  minBandwidthTime : K := 6

/-- `Crossing`. -/
structure Crossing (K : Type*) where
  index : ℕ
  noisePower : K
  slopeDbPerSample : K
  interceptDb : K

/-- What a round of the search starts from; the line of the last fit comes with its crossing. -/
structure Search (K : Type*) where
  levels : List K
  centres : List K
  noise : K
  crossing : Option K
  slope : K
  intercept : K

variable (logs : LogFns K) (cfg : DecayConfig K)

/-- The first index of the largest level. -/
def peakIndex (levels : List K) : ℕ :=
  (List.range' 1 (levels.length - 1)).foldl
    (fun peak i => if levels.getD peak 0 < levels.getD i 0 then i else peak) 0

/-- The last block, from the peak on, before the first that is not above `usableDb`. -/
def lastUsable (levels : List K) (peak : ℕ) (usableDb : K) : ℕ :=
  peak + ((levels.drop (peak + 1)).takeWhile fun l => usableDb < powerToDb logs l).length

/-- The fit of a round: the slope and the intercept, where the slope falls. -/
def lateDecayFit (levels centres : List K) (noiseDb : K) : Option (K × K) :=
  let peak := peakIndex levels
  let usableDb := noiseDb + cfg.standoffDb
  let top := powerToDb logs (levels.getD peak 0)
  if ¬usableDb < top then none
  else
    let blocks := List.range' peak (lastUsable logs levels peak usableDb + 1 - peak)
    let fitted := blocks.filter fun i =>
      powerToDb logs (levels.getD i 0) ≤ top ∧
        top - cfg.fitRangeDb ≤ powerToDb logs (levels.getD i 0)
    if fitted.length < 2 then none
    else
      match leastSquares (fitted.map fun i => centres.getD i 0)
          (fitted.map fun i => powerToDb logs (levels.getD i 0)) with
      | none => none
      | some (slope, intercept) => if 0 ≤ slope then none else some (slope, intercept)

/-- The end of a round: the blocks of a window sized from the slope, and the noise from beyond the
crossing. -/
def reestimate (squared : List K) (slope crossing : K) : Option (List K × List K × K) :=
  let dbPerSample := -slope
  if ¬0 < dbPerSample then none
  else
    -- without intervals the window is infinite there and zero here, and refused in both
    let window := 10 / dbPerSample / cfg.intervalsPer10Db
    if ¬1 ≤ window then none
    else
      match blockAverage squared ⌊window⌋₊ with
      | none => none
      | some (levels, centres) =>
        let startF := crossing + cfg.noiseMarginDb / dbPerSample
        if ¬0 ≤ startF then none
        else if (squared.length : K) ≤ startF then none
        else
          let start := ⌊startF⌋₊
          if squared.length - start < 16 then none
          else
            let noise := (squared.drop start).sum / (squared.length - start : ℕ)
            if ¬0 < noise then none else some (levels, centres, noise)

/-- The rounds of `findCrossing`, of which so many are left. -/
def searchLoop (squared : List K) (sampleRate : K) : ℕ → Search K → Option (Search K)
  | 0, s => some s
  | left + 1, s =>
    let noiseDb := powerToDb logs s.noise
    match lateDecayFit logs cfg s.levels s.centres noiseDb with
    | none => none
    | some (slope, intercept) =>
      let next := (noiseDb - intercept) / slope
      let converged :=
        match s.crossing with
        | none => false
        | some crossing => decide (|next - crossing| / sampleRate < cfg.convergenceSec)
      let fitted := { s with crossing := some next, slope := slope, intercept := intercept }
      if converged then some fitted
      else
        match reestimate cfg squared slope next with
        | none => none
        | some (levels, centres, noise) =>
          searchLoop squared sampleRate left
            { fitted with levels := levels, centres := centres, noise := noise }

/-- `findCrossing`. -/
def findCrossing (squared : List K) (sampleRate : K) : Option (Crossing K) :=
  if squared.length < 32 then none
  else
    match blockAverage squared ⌊3 / 100 * sampleRate⌋₊ with
    | none => none
    | some (levels, centres) =>
      let start := ⌊(9 / 10 * squared.length : K)⌋₊
      if ((squared.length - start : ℕ) : K) ≤ 0 then none
      else
        let noise := (squared.drop start).sum / (squared.length - start : ℕ)
        if noise ≤ 0 then none
        else
          match searchLoop logs cfg squared sampleRate cfg.maxIterations.toNat
              { levels := levels, centres := centres, noise := noise, crossing := none,
                slope := 0, intercept := 0 } with
          | none => none
          | some s =>
            match s.crossing with
            | none => none
            | some crossing =>
              if ¬0 < crossing ∨ (squared.length : K) ≤ crossing then none
              else if 16 ≤ ⌊crossing⌋₊ then
                some
                  { index := ⌊crossing⌋₊, noisePower := s.noise, slopeDbPerSample := -s.slope,
                    interceptDb := s.intercept }
              else none

/-! ### What a crossing is -/

variable {logs cfg}

/-- Whoever has a crossing has fitted a falling line. -/
def Search.Falling (s : Search K) : Prop := s.crossing.isSome = true → s.slope < 0

omit [FloorSemiring K] in
theorem lateDecayFit_slope {levels centres : List K} {noiseDb slope intercept : K}
    (h : lateDecayFit logs cfg levels centres noiseDb = some (slope, intercept)) : slope < 0 := by
  simp only [lateDecayFit] at h
  split_ifs at h
  split at h
  · cases h
  · split_ifs at h with hslope
    obtain ⟨rfl, -⟩ := Prod.mk.inj (Option.some.inj h)
    exact not_le.mp hslope

variable {squared : List K} {sampleRate : K}

/-- The rounds keep the invariant. -/
theorem searchLoop_falling (left : ℕ) {s s' : Search K}
    (hs : s.Falling) (h : searchLoop logs cfg squared sampleRate left s = some s') :
    s'.Falling := by
  induction left generalizing s with
  | zero =>
    obtain rfl := Option.some.inj h
    exact hs
  | succ left ih =>
    rw [searchLoop] at h
    rcases hfit : lateDecayFit logs cfg s.levels s.centres (powerToDb logs s.noise) with
      _ | ⟨slope, intercept⟩
    · rw [hfit] at h
      cases h
    · have hslope := lateDecayFit_slope hfit
      rw [hfit] at h
      dsimp only at h
      split_ifs at h
      · obtain rfl := Option.some.inj h
        exact fun _ => hslope
      · split at h
        · cases h
        · exact ih (fun _ => hslope) h

/-- **Headline.** A crossing lies inside the response, past its first samples, and on a falling
line. -/
theorem findCrossing_spec [IsStrictOrderedRing K]
    {crossing : Crossing K} (h : findCrossing logs cfg squared sampleRate = some crossing) :
    16 ≤ crossing.index ∧ crossing.index < squared.length ∧ 0 < crossing.slopeDbPerSample := by
  rw [findCrossing] at h
  split_ifs at h
  split at h
  · cases h
  · dsimp only at h
    split_ifs at h
    split at h
    · cases h
    · rename_i s hloop
      have hfalling : s.Falling := searchLoop_falling _ (fun hsome => by cases hsome) hloop
      split at h
      · cases h
      · rename_i place hplace
        split_ifs at h with hout hindex
        obtain rfl := Option.some.inj h
        rw [not_or, not_not, not_le] at hout
        refine ⟨hindex, (Nat.floor_lt hout.1.le).mpr hout.2, ?_⟩
        exact neg_pos.mpr (hfalling (by rw [hplace]; rfl))

end Ir

end RtaTool
