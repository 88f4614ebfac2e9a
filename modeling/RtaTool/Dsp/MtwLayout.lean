import RtaTool.Dsp.DualFftFrames
import Mathlib.Tactic.FieldSimp
import Mathlib.Tactic.GCongr
import Mathlib.Tactic.Linarith
import Mathlib.Tactic.Ring

/-!
# The bands of several windows

`MtwLayout.cpp`, and the search of `MtwEngine.cpp` for the band of an index. Bands are counted from
the lowest, whose transform is the longest, and each has half the length of the one below it. A band
owns the bins of one octave, the lowest also those down to DC and the highest those up to Nyquist,
and the stitched frequencies are what the bands own, one band after the other.

## Main definitions

* `MtwConfig`, `MtwBand`, `mtwBands`, `mtwPointCount`, `mtwFrequencies`, `bandForIndex`
* `MtwConfig.Legal`, `MtwConfig.bandAt` -- what is accepted, and the bands of it

## Main results

* `Legal.getElem?_stitched`, `exists_owner` -- which band and bin a stitched index has
* `mtwFrequencies_spec` -- **Headline.** The stitched frequencies rise from DC to Nyquist
* `bandForIndex_spec` -- **Headline.** The band that is found is the one that owns the index
-/

namespace RtaTool

/-- `MtwConfig`, as far as the bands are made of it or it is checked. -/
structure MtwConfig where
  topFftSize : ℕ := 1024
  octaveCount : ℕ := 6
  sampleRate : ℚ := 48000
  fifoDepth : ℕ := 16
  timeConstantFrames : ℚ := 16
  minimumEffectiveAverages : ℚ := 8

/-- What the functions of the bands throw. -/
inductive MtwError
  | topFftSize
  | octaveCount
  | sampleRate
  | timeConstant
  | minimumAverages
  | fifoDepth
  | bandIndex
  deriving DecidableEq

/-- `what()`. -/
def MtwError.what : MtwError → String
  | .topFftSize => "MtwConfig topFftSize must be 512, 1024 or 2048"
  | .octaveCount => "MtwConfig octaveCount must be within 1..10"
  | .sampleRate => "MtwConfig sampleRate must be positive"
  | .timeConstant => "MtwConfig timeConstantFrames must be positive"
  | .minimumAverages => "MtwConfig minimumEffectiveAverages must be at least 1.0"
  | .fifoDepth => "MtwConfig fifoDepth must be within 1..32"
  | .bandIndex => "bandForIndex: stitched index out of range"

/-- `MtwBand`, without the hop and the three numbers that are shown. -/
structure MtwBand where
  fftSize : ℕ
  firstBin : ℕ
  lastBin : ℕ
  firstIndex : ℕ

/-- How many points a band has. -/
def MtwBand.count (band : MtwBand) : ℕ := band.lastBin - band.firstBin + 1

/-- What a loop from `firstBin` to `lastBin` goes through. -/
def MtwBand.bins (band : MtwBand) : List ℕ :=
  List.range' band.firstBin (band.lastBin + 1 - band.firstBin)

def kMaxOctaveCount : ℕ := 10

def kMaxFifoDepth : ℕ := 32

namespace MtwConfig

/-- A check that throws. -/
def refuseIf (p : Prop) [Decidable p] (error : MtwError) : Except MtwError Unit :=
  if p then .error error else .ok ()

/-- `validate(config)`. -/
def validate (config : MtwConfig) : Except MtwError Unit := do
  refuseIf (¬(config.topFftSize = 512 ∨ config.topFftSize = 1024 ∨ config.topFftSize = 2048))
    .topFftSize
  refuseIf (config.octaveCount = 0 ∨ kMaxOctaveCount < config.octaveCount) .octaveCount
  refuseIf (¬ 0 < config.sampleRate) .sampleRate
  refuseIf (¬ 0 < config.timeConstantFrames) .timeConstant
  refuseIf (¬ 1 ≤ config.minimumEffectiveAverages) .minimumAverages
  refuseIf (config.fifoDepth = 0 ∨ kMaxFifoDepth < config.fifoDepth) .fifoDepth

/-- `fftSizeForIndex(config, i)`. -/
def fftSizeForIndex (config : MtwConfig) (i : ℕ) : ℕ :=
  config.topFftSize <<< (config.octaveCount - i)

/-- A turn of the loop of `mtwBands`. -/
def band (config : MtwConfig) (i runningIndex : ℕ) : MtwBand where
  fftSize := config.fftSizeForIndex i
  firstBin := if i = 0 then 0 else config.topFftSize / 8
  lastBin := if i = config.octaveCount then config.topFftSize / 2 else config.topFftSize / 4 - 1
  firstIndex := runningIndex

/-- What the bands need of what `validate` makes sure of. -/
structure Legal (config : MtwConfig) : Prop where
  topFftSize : config.topFftSize = 512 ∨ config.topFftSize = 1024 ∨ config.topFftSize = 2048
  octaveCount : 0 < config.octaveCount
  sampleRate : 0 < config.sampleRate

end MtwConfig

/-- `mtwBands(config)`. -/
def mtwBands (config : MtwConfig) : Except MtwError (List MtwBand) := do
  config.validate
  return ((List.range (config.octaveCount + 1)).foldl
    (fun (bands, runningIndex) i =>
      let band := config.band i runningIndex
      (bands ++ [band], runningIndex + band.count)) ([], 0)).1

/-- `mtwPointCount(config)`. -/
def mtwPointCount (config : MtwConfig) : Except MtwError ℕ := do
  config.validate
  let n0 := config.topFftSize
  return (n0 / 2 - n0 / 8 + 1) + (config.octaveCount - 1) * (n0 / 8) + n0 / 4

/-- `mtwFrequencies(config)`. -/
def mtwFrequencies (config : MtwConfig) : Except MtwError (List ℚ) := do
  let bands ← mtwBands config
  return bands.flatMap fun band => band.bins.map fun (bin : ℕ) =>
    bin * config.sampleRate / band.fftSize

/-- `bandForIndex(result, index)`, of the bands of a result. -/
def bandForIndex (bands : List MtwBand) (index : ℕ) : Except MtwError ℕ :=
  match bands.findIdx? fun band =>
    band.firstIndex ≤ index ∧ index < band.firstIndex + band.count with
  | some b => .ok b
  | none => .error .bandIndex

variable {config : MtwConfig}

namespace MtwConfig

theorem not_of_refuseIf {p : Prop} [Decidable p] {error : MtwError}
    (h : refuseIf p error = .ok ()) : ¬p := by
  intro hp
  rw [refuseIf, if_pos hp] at h
  cases h

theorem legal_of_validate (h : config.validate = .ok ()) : config.Legal := by
  rw [validate] at h
  obtain ⟨⟨⟩, htop, h⟩ := DualFftEngine.ok_of_bind h
  obtain ⟨⟨⟩, hoctaves, h⟩ := DualFftEngine.ok_of_bind h
  obtain ⟨⟨⟩, hrate, -⟩ := DualFftEngine.ok_of_bind h
  have hoctaves := not_of_refuseIf hoctaves
  exact ⟨not_not.mp (not_of_refuseIf htop), by omega, not_not.mp (not_of_refuseIf hrate)⟩

/-- Where a band starts. -/
def bandStart (config : MtwConfig) : ℕ → ℕ
  | 0 => 0
  | i + 1 => bandStart config i + (config.band i (bandStart config i)).count

/-- A band of the table. -/
def bandAt (config : MtwConfig) (i : ℕ) : MtwBand := config.band i (config.bandStart i)

/-- What the bands own, from the lowest to the highest. -/
def stitched {α : Type*} (config : MtwConfig) (value : ℕ → ℕ → α) (n : ℕ) : List α :=
  (List.range n).flatMap fun i => (config.bandAt i).bins.map (value i)

theorem monotone_bandStart (config : MtwConfig) : Monotone config.bandStart :=
  monotone_nat_of_le_succ fun _ => Nat.le_add_right _ _

namespace Legal

variable (h : config.Legal)

include h

theorem exists_octave : ∃ m, 0 < m ∧ config.topFftSize = 8 * m ∧
    ∀ i, (config.bandAt i).firstBin = (if i = 0 then 0 else m) ∧
      (config.bandAt i).lastBin = (if i = config.octaveCount then 4 * m else 2 * m - 1) := by
  have := h.topFftSize
  refine ⟨config.topFftSize / 8, by omega, by omega, fun i => ⟨rfl, ?_⟩⟩
  simp only [bandAt, band]
  split <;> omega

theorem bins_eq (i : ℕ) : (config.bandAt i).bins =
    List.range' (config.bandAt i).firstBin (config.bandAt i).count := by
  obtain ⟨m, hpos, -, hbins⟩ := h.exists_octave
  rw [MtwBand.bins, MtwBand.count, (hbins i).1, (hbins i).2]
  congr 1
  split <;> split <;> omega

/-- The closed form of `mtwPointCount`. -/
theorem bandStart_last : config.bandStart (config.octaveCount + 1) =
    (config.topFftSize / 2 - config.topFftSize / 8 + 1) +
      (config.octaveCount - 1) * (config.topFftSize / 8) + config.topFftSize / 4 := by
  obtain ⟨m, hpos, hm, hbins⟩ := h.exists_octave
  have hstart : ∀ i < config.octaveCount, config.bandStart (i + 1) = (i + 2) * m := by
    intro i hi
    induction i with
    | zero =>
      show 0 + (config.bandAt 0).count = _
      rw [MtwBand.count, (hbins 0).1, (hbins 0).2, if_pos rfl, if_neg hi.ne]
      omega
    | succ i ih =>
      have hnext : (i + 1 + 2) * m = (i + 2) * m + m := by ring
      show config.bandStart (i + 1) + (config.bandAt (i + 1)).count = _
      rw [ih (by omega), MtwBand.count, (hbins _).1, (hbins _).2, if_neg i.succ_ne_zero,
        if_neg hi.ne, hnext]
      omega
  obtain ⟨k, hk⟩ : ∃ k, config.octaveCount = k + 1 :=
    ⟨config.octaveCount - 1, by have := h.octaveCount; omega⟩
  show config.bandStart config.octaveCount + (config.bandAt config.octaveCount).count = _
  rw [MtwBand.count, (hbins _).1, (hbins _).2, hm, hk, if_neg k.succ_ne_zero, if_pos rfl,
    hstart k (by omega), Nat.add_sub_cancel, Nat.mul_div_cancel_left _ (by decide), Nat.add_mul]
  omega

theorem fftSize_eq (i : ℕ) :
    config.fftSizeForIndex i = config.topFftSize * 2 ^ (config.octaveCount - i) ∧
      (0 : ℚ) < config.fftSizeForIndex i := by
  obtain ⟨m, hpos, hm, -⟩ := h.exists_octave
  have heq : config.fftSizeForIndex i = config.topFftSize * 2 ^ (config.octaveCount - i) :=
    Nat.shiftLeft_eq _ _
  refine ⟨heq, ?_⟩
  rw [heq, hm]
  positivity

theorem length_stitched {α : Type*} (value : ℕ → ℕ → α) (n : ℕ) :
    (config.stitched value n).length = config.bandStart n := by
  induction n with
  | zero => rfl
  | succ n ih =>
    rw [stitched, List.range_succ, List.flatMap_append, List.length_append, List.flatMap_singleton,
      List.length_map, h.bins_eq, List.length_range']
    exact congrArg (· + _) ih

/-- Where a band puts what it owns. -/
theorem getElem?_stitched {α : Type*} (value : ℕ → ℕ → α) {i n r : ℕ} (hi : i < n)
    (hr : r < (config.bandAt i).count) : (config.stitched value n)[config.bandStart i + r]? =
      some (value i ((config.bandAt i).firstBin + r)) := by
  induction n with
  | zero => exact absurd hi i.not_lt_zero
  | succ n ih =>
    have hlength := h.length_stitched value n
    rw [stitched, List.range_succ, List.flatMap_append, List.flatMap_singleton]
    by_cases hn : i < n
    · have hle : config.bandStart i + (config.bandAt i).count ≤ config.bandStart n :=
        config.monotone_bandStart hn
      rw [List.getElem?_append_left (by rw [← stitched, hlength]; omega)]
      exact ih hn
    · obtain rfl : i = n := by omega
      rw [List.getElem?_append_right (by rw [← stitched, hlength]; omega), ← stitched, hlength,
        Nat.add_sub_cancel_left, h.bins_eq, List.getElem?_map, List.getElem?_range' hr, Nat.one_mul]
      rfl

end Legal

/-- Every index is owned by a band. -/
theorem exists_owner {index n : ℕ} (hindex : index < config.bandStart n) :
    ∃ i < n, ∃ r < (config.bandAt i).count, index = config.bandStart i + r := by
  induction n with
  | zero => exact absurd hindex index.not_lt_zero
  | succ n ih =>
    by_cases hn : index < config.bandStart n
    · obtain ⟨i, hi, howner⟩ := ih hn
      exact ⟨i, by omega, howner⟩
    · refine ⟨n, n.lt_succ_self, index - config.bandStart n, ?_, by omega⟩
      change index < config.bandStart n + (config.bandAt n).count at hindex
      omega

end MtwConfig

open MtwConfig

/-! ### The table and the frequencies -/

theorem mtwBands_eq (h : config.validate = .ok ()) :
    mtwBands config = .ok ((List.range (config.octaveCount + 1)).map config.bandAt) := by
  have hloop : ∀ n, (List.range n).foldl (fun (bands, runningIndex) i =>
      let band := config.band i runningIndex
      (bands ++ [band], runningIndex + band.count)) (([] : List MtwBand), 0) =
      ((List.range n).map config.bandAt, config.bandStart n) := by
    intro n
    induction n with
    | zero => rfl
    | succ n ih =>
      rw [List.range_succ, List.foldl_append, ih, List.map_append]
      rfl
  rw [mtwBands, h, hloop]
  rfl

theorem mtwPointCount_eq (h : config.validate = .ok ()) :
    mtwPointCount config = .ok (config.bandStart (config.octaveCount + 1)) := by
  rw [mtwPointCount, h, (legal_of_validate h).bandStart_last]
  rfl

/-- The frequency of a bin of a band. -/
def MtwConfig.frequencyAt (config : MtwConfig) (i bin : ℕ) : ℚ :=
  bin * config.sampleRate / (config.fftSizeForIndex i : ℕ)

theorem mtwFrequencies_eq (h : config.validate = .ok ()) :
    mtwFrequencies config = .ok (config.stitched config.frequencyAt (config.octaveCount + 1)) := by
  rw [mtwFrequencies, mtwBands_eq h]
  show Except.ok _ = _
  rw [List.flatMap_map]
  rfl

namespace MtwConfig

/-- The bands do not meet: what a band owns is below `2 * m` of its bins, and what one above it owns
is not below `m` of its own, which are at least as far apart again. -/
theorem Legal.frequencyAt_lt (h : config.Legal) {i j bin bin' : ℕ} (hij : i < j)
    (hj : j ≤ config.octaveCount) (hbin : bin ∈ (config.bandAt i).bins)
    (hbin' : bin' ∈ (config.bandAt j).bins) :
    config.frequencyAt i bin < config.frequencyAt j bin' := by
  obtain ⟨m, hpos, hm, hbins⟩ := h.exists_octave
  rw [h.bins_eq, List.mem_range'_1, MtwBand.count, (hbins i).2, if_neg (by omega : i ≠ _)] at hbin
  rw [h.bins_eq, List.mem_range'_1, (hbins j).1, if_neg (by omega : j ≠ 0)] at hbin'
  have hlt : bin < 2 * m := by
    rw [(hbins i).1] at hbin
    split at hbin <;> omega
  have hpow : 2 * 2 ^ (config.octaveCount - j) ≤ 2 ^ (config.octaveCount - i) := by
    rw [← pow_succ']
    exact Nat.pow_le_pow_right (by decide) (by omega)
  obtain ⟨hi, hposi⟩ := h.fftSize_eq i
  obtain ⟨hj, hposj⟩ := h.fftSize_eq j
  have hcross : bin * config.fftSizeForIndex j < bin' * config.fftSizeForIndex i := by
    have hfft : 0 < config.topFftSize := by omega
    rw [hi, hj]
    calc bin * (config.topFftSize * 2 ^ (config.octaveCount - j))
        < 2 * m * (config.topFftSize * 2 ^ (config.octaveCount - j)) := by gcongr
      _ = m * (config.topFftSize * (2 * 2 ^ (config.octaveCount - j))) := by ring
      _ ≤ bin' * (config.topFftSize * 2 ^ (config.octaveCount - i)) := by
        gcongr
        exact hbin'.1
  have hcast : (bin : ℚ) * config.fftSizeForIndex j < bin' * config.fftSizeForIndex i :=
    mod_cast hcross
  rw [frequencyAt, frequencyAt, div_lt_div_iff₀ hposi hposj]
  nlinarith [mul_lt_mul_of_pos_right hcast h.sampleRate]

theorem Legal.pairwise_frequencies (h : config.Legal) :
    (config.stitched config.frequencyAt (config.octaveCount + 1)).Pairwise (· < ·) := by
  rw [stitched, List.pairwise_flatMap]
  constructor
  · intro i _
    rw [List.pairwise_map, h.bins_eq]
    refine (List.pairwise_lt_range' _).imp fun {bin bin'} hlt => ?_
    have hrate := h.sampleRate
    have hsize := (h.fftSize_eq i).2
    rw [frequencyAt, frequencyAt]
    gcongr
  · refine List.pairwise_lt_range.imp_of_mem fun {i j} _ hj hij => ?_
    intro f hf g hg
    obtain ⟨bin, hbin, rfl⟩ := List.mem_map.mp hf
    obtain ⟨bin', hbin', rfl⟩ := List.mem_map.mp hg
    exact h.frequencyAt_lt hij (Nat.lt_succ_iff.mp (List.mem_range.mp hj)) hbin hbin'

end MtwConfig

/-- **Headline.** The stitched frequencies are as many as `mtwPointCount` says, strictly increasing,
the first of them DC and the last Nyquist. -/
theorem mtwFrequencies_spec (h : config.validate = .ok ()) :
    ∃ frequencies, mtwFrequencies config = .ok frequencies ∧
      mtwPointCount config = .ok frequencies.length ∧
      frequencies.Pairwise (· < ·) ∧ frequencies[0]? = some 0 ∧
      frequencies[frequencies.length - 1]? = some (config.sampleRate / 2) := by
  have hl := legal_of_validate h
  obtain ⟨m, hpos, hm, hbins⟩ := hl.exists_octave
  have hlength := hl.length_stitched config.frequencyAt (config.octaveCount + 1)
  have hcount : (config.bandAt config.octaveCount).count = 3 * m + 1 := by
    rw [MtwBand.count, (hbins _).1, (hbins _).2, if_neg hl.octaveCount.ne', if_pos rfl]
    omega
  refine ⟨_, mtwFrequencies_eq h, ?_, hl.pairwise_frequencies, ?_, ?_⟩
  · rw [mtwPointCount_eq h, hlength]
  · have hzero := hl.getElem?_stitched config.frequencyAt (i := 0) (r := 0)
      (Nat.succ_pos config.octaveCount) (Nat.succ_pos _)
    rw [(hbins 0).1] at hzero
    simpa [frequencyAt, bandStart] using hzero
  · have htop := hl.getElem?_stitched config.frequencyAt (i := config.octaveCount) (r := 3 * m)
      (Nat.lt_succ_self _) (by omega)
    have hlast : config.bandStart (config.octaveCount + 1) - 1 =
        config.bandStart config.octaveCount + 3 * m := by
      show config.bandStart config.octaveCount + (config.bandAt config.octaveCount).count - 1 = _
      omega
    have hm0 : (m : ℚ) ≠ 0 := mod_cast hpos.ne'
    rw [hlength, hlast, htop, (hbins _).1, if_neg hl.octaveCount.ne', frequencyAt,
      (hl.fftSize_eq _).1, Nat.sub_self, pow_zero, hm]
    congr 1
    push_cast
    field_simp
    ring

/-- The defaults: seven bands. -/
theorem mtwFrequencies_spec_default : ∃ frequencies, mtwFrequencies {} = .ok frequencies ∧
    frequencies.length = 1281 ∧ frequencies.Pairwise (· < ·) := by
  obtain ⟨frequencies, heq, hcount, hpair, -⟩ := @mtwFrequencies_spec {} (by decide)
  exact ⟨frequencies, heq, (Except.ok.inj hcount).symm, hpair⟩

/-! ### Back from an index -/

/-- **Headline.** Below the number of points the search finds the band of the index, and the bin as
far from its first bin as the index is from its first index is one that it owns, at the frequency of
that index. From there on it throws. -/
theorem bandForIndex_spec (h : config.validate = .ok ()) :
    ∃ bands frequencies, mtwBands config = .ok bands ∧ mtwFrequencies config = .ok frequencies ∧
      (∀ index < frequencies.length, ∃ b band, ∃ bin ∈ band.bins,
        bandForIndex bands index = .ok b ∧ bands[b]? = some band ∧
        band.firstIndex ≤ index ∧ bin = band.firstBin + (index - band.firstIndex) ∧
        frequencies[index]? = some (bin * config.sampleRate / band.fftSize)) ∧
      ∀ index, frequencies.length ≤ index → bandForIndex bands index = .error .bandIndex := by
  have hl := legal_of_validate h
  have hlength := hl.length_stitched config.frequencyAt (config.octaveCount + 1)
  have hend : ∀ {j n}, j < n → config.bandStart j + (config.bandAt j).count ≤ config.bandStart n :=
    fun hjn => config.monotone_bandStart hjn
  refine ⟨_, _, mtwBands_eq h, mtwFrequencies_eq h, fun index hindex => ?_, fun index hindex => ?_⟩
  · obtain ⟨i, hi, r, hr, rfl⟩ := exists_owner (hindex.trans_eq hlength)
    refine ⟨i, config.bandAt i, (config.bandAt i).firstBin + r, ?_, ?_, ?_, Nat.le_add_right _ _,
      congrArg _ (Nat.add_sub_cancel_left _ _).symm, hl.getElem?_stitched _ hi hr⟩
    · rw [hl.bins_eq, List.mem_range'_1]
      omega
    · have hfind : ((List.range (config.octaveCount + 1)).map config.bandAt).findIdx? (fun band =>
          band.firstIndex ≤ config.bandStart i + r ∧
            config.bandStart i + r < band.firstIndex + band.count) = some i := by
        rw [List.findIdx?_eq_some_iff_getElem]
        refine ⟨by rwa [List.length_map, List.length_range], ?_, fun j hj => ?_⟩
        · rw [List.getElem_map, List.getElem_range, decide_eq_true_iff]
          exact ⟨Nat.le_add_right _ _, Nat.add_lt_add_left hr _⟩
        · rw [List.getElem_map, List.getElem_range, Bool.not_eq_true, decide_eq_false_iff_not,
            not_and, Nat.not_lt]
          exact fun _ => (hend hj).trans (Nat.le_add_right _ _)
      rw [bandForIndex, hfind]
    · rw [List.getElem?_map, List.getElem?_range hi]
      rfl
  · have hfind : ((List.range (config.octaveCount + 1)).map config.bandAt).findIdx? (fun band =>
        band.firstIndex ≤ index ∧ index < band.firstIndex + band.count) = none := by
      rw [List.findIdx?_eq_none_iff]
      intro band hband
      obtain ⟨j, hj, rfl⟩ := List.mem_map.mp hband
      rw [decide_eq_false_iff_not, not_and, Nat.not_lt]
      exact fun _ => (hend (List.mem_range.mp hj)).trans (hlength.ge.trans hindex)
    rw [bandForIndex, hfind]

/-- The defaults. -/
theorem bandForIndex_spec_default : ∃ bands frequencies, mtwBands {} = .ok bands ∧
    mtwFrequencies {} = .ok frequencies ∧
      ∀ index < frequencies.length, ∃ b, bandForIndex bands index = .ok b := by
  obtain ⟨bands, frequencies, hbands, hfrequencies, hfound, -⟩ := @bandForIndex_spec {} (by decide)
  refine ⟨bands, frequencies, hbands, hfrequencies, fun index hindex => ?_⟩
  obtain ⟨b, -, -, -, hb, -⟩ := hfound index hindex
  exact ⟨b, hb⟩

end RtaTool
