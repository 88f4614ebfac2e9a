import RtaTool.Dsp.MinimumPhase
import RtaTool.Lib.PiecewiseLinear

/-!
# Excess phase

`ExcessPhase.cpp` in exact arithmetic. Bins that are not trusted take the magnitude of the nearest
trusted one, the half grid is interpolated onto a finer one and mirrored, and the minimum-phase
spectrum of that is read back at the original bins. What is interpolated is a level in decibels, for
which a magnitude is first raised to `1e-20`.

## Main definitions

* `leftTrusted`, `rightTrusted`, `nearestTrustedIndex` -- the fill
* `oversampledMagnitude`, `interpolateOversampledFullCircle` -- the finer grid
* `groupDelaySeconds`, `excessRatio`, `excessPhase`

## Main results

* `nearestTrusted_spec` -- a bin is filled from its nearest trusted one
* `oversampledMagnitude_mul`, `oversampledMagnitude_mem` -- the finer grid at the original bins and
  between them
* `excessPhase_spec` -- **Headline.** The ratio that is reported has modulus one
-/

namespace RtaTool

namespace Dsp

open Fft
open scoped ComplexConjugate

/-! ### `ExcessPhase.cpp` -/

def kMinTrustedBins : ℕ := 2

def kGroupDelaySmoothingBins : ℕ := 1

/-- `validate` of `ExcessPhase.cpp`. -/
noncomputable def validateExcessPhase (magnitudeHalfGrid : List ℝ) (hHalfGrid : List ℂ)
    (trusted : List Bool) (sampleRate : ℝ) (oversampleFactor : ℕ) : Except String Unit :=
  let m := magnitudeHalfGrid.length
  if m ≠ hHalfGrid.length ∨ m ≠ trusted.length then
    .error "excessPhase: magnitudeHalfGrid, hHalfGrid and trusted must be the same length"
  else if m < 3 ∨ isPowerOfTwo (m - 1) = false then
    .error "excessPhase: magnitudeHalfGrid.size() must be 2^k + 1, k >= 1"
  else if sampleRate ≤ 0 then .error "excessPhase: sampleRate must be positive"
  else if oversampleFactor = 0 ∨ isPowerOfTwo oversampleFactor = false then
    .error "excessPhase: oversampleFactor must be a positive power of two"
  else .ok ()

/-- `left[k]`: the last trusted bin at or before, or `-1`. -/
def leftTrusted (trusted : List Bool) : ℕ → ℤ
  | 0 => if trusted.getD 0 false then 0 else -1
  | k + 1 => if trusted.getD (k + 1) false then (k + 1 : ℕ) else leftTrusted trusted k

/-- The pass from the right with so many bins to go, at `k`. -/
def rightTrustedFrom (trusted : List Bool) : ℕ → ℕ → ℤ
  | 0, _ => -1
  | remaining + 1, k =>
    if trusted.getD k false then k else rightTrustedFrom trusted remaining (k + 1)

/-- `right[k]`: the first trusted bin at or after, or `-1`. -/
def rightTrusted (trusted : List Bool) (k : ℕ) : ℤ :=
  rightTrustedFrom trusted (trusted.length - k) k

/-- The entry of `nearestTrustedIndex` at `k`. -/
def nearestTrusted (trusted : List Bool) (k : ℕ) : ℕ :=
  let l := leftTrusted trusted k
  let r := rightTrusted trusted k
  if l < 0 then r.toNat
  else if r < 0 then l.toNat
  else
    let dl := (k : ℤ) - l
    let dr := r - (k : ℤ)
    if dl ≤ dr then l.toNat else r.toNat

/-- `nearestTrustedIndex(trusted)`. -/
def nearestTrustedIndex (trusted : List Bool) : List ℕ :=
  (List.range trusted.length).map (nearestTrusted trusted)

/-- A magnitude in decibels, raised to `1e-20`. -/
noncomputable def filledDb (filled : List ℝ) (k : ℕ) : ℝ :=
  20 * Real.logb 10 (max (filled.getD k 0) 1e-20)

/-- One turn of the loop of `interpolateOversampledFullCircle`. -/
noncomputable def oversampledMagnitude (filled : List ℝ) (oversampleFactor j : ℕ) : ℝ :=
  let m := filled.length
  let x : ℝ := j / oversampleFactor
  let kLo := min ⌊x⌋₊ (m - 1)
  let dbJ :=
    if m - 1 ≤ kLo ∨ x = kLo then filledDb filled (min kLo (m - 1))
    else
      let kHi := kLo + 1
      let t :=
        if kLo = 0 then x
        else (Real.logb 10 x - Real.logb 10 kLo) / (Real.logb 10 kHi - Real.logb 10 kLo)
      filledDb filled kLo + t * (filledDb filled kHi - filledDb filled kLo)
  10 ^ (dbJ / 20)

/-- `interpolateOversampledFullCircle(filled, oversampleFactor, nFft)`. What is written at `j` is
written at the mirror image too. -/
noncomputable def interpolateOversampledFullCircle (filled : List ℝ) (oversampleFactor nFft : ℕ) :
    List ℝ :=
  let nFftOS := oversampleFactor * nFft
  let halfOS := nFftOS / 2
  (List.range nFftOS).map fun j =>
    oversampledMagnitude filled oversampleFactor (if j ≤ halfOS then j else nFftOS - j)

/-- `closedForm` of `GroupDelay.cpp`. -/
noncomputable def closedForm (dHdOmega h : ℂ) : ℝ :=
  let magSq := Complex.normSq h
  if magSq ≤ 0 then 0 else -(dHdOmega * conj h).im / magSq

/-- `groupDelaySeconds(h, binWidthHz, smoothingBins, out)`, less the check on the size of `out`. -/
noncomputable def groupDelaySeconds (h : List ℂ) (binWidthHz : ℝ) (smoothingBins : ℕ) :
    Except String (List ℝ) :=
  if smoothingBins = 0 then .error "groupDelaySeconds smoothingBins must be at least 1"
  else if ¬ 0 < binWidthHz then .error "groupDelaySeconds binWidthHz must be positive"
  else
    let angularBinWidth := 2 * Real.pi * binWidthHz
    let numBins := h.length
    let m := smoothingBins
    .ok
      ((List.range numBins).map fun k =>
        if m ≤ k ∧ k + m < numBins then
          let diff := h.getD (k + m) 0 - h.getD (k - m) 0
          let dOmega := 2 * m * angularBinWidth
          closedForm (diff / dOmega) (h.getD k 0)
        else
          let forward := if k + 1 < numBins then min m (numBins - 1 - k) else 0
          let backward := min m k
          if backward ≤ forward ∧ 0 < forward then
            let diff := h.getD (k + forward) 0 - h.getD k 0
            let dOmega := forward * angularBinWidth
            closedForm (diff / dOmega) (h.getD k 0)
          else if 0 < backward then
            let diff := h.getD k 0 - h.getD (k - backward) 0
            let dOmega := backward * angularBinWidth
            closedForm (diff / dOmega) (h.getD k 0)
          else 0)

/-- `meanOfTrusted(values, trusted)`. -/
noncomputable def meanOfTrusted (values : List ℝ) (trusted : List Bool) : ℝ :=
  let chosen := (values.zip trusted).filter fun entry => entry.2
  if chosen.length = 0 then 0 else (chosen.map Prod.fst).sum / chosen.length

/-- `ExcessPhaseResult`. -/
structure ExcessPhaseResult where
  excessPhaseRad : List ℝ := []
  excessGroupDelay : List ℝ := []
  broadbandDelaySec : ℝ := 0
  oversampleFactor : ℕ := 0
  valid : Bool := false

/-- The magnitudes after the fill. -/
def filledMagnitudes (magnitudeHalfGrid : List ℝ) (trusted : List Bool) : List ℝ :=
  (List.range magnitudeHalfGrid.length).map fun k =>
    magnitudeHalfGrid.getD ((nearestTrustedIndex trusted).getD k 0) 0

/-- Steps 1 to 4 of `excessPhase`: `ratioRaw`. -/
noncomputable def excessRatio (magnitudeHalfGrid : List ℝ) (hHalfGrid : List ℂ)
    (trusted : List Bool) (oversampleFactor : ℕ) : Except String (List ℂ) :=
  let m := magnitudeHalfGrid.length
  let nFft := 2 * (m - 1)
  let filled := filledMagnitudes magnitudeHalfGrid trusted
  let magOSFull := interpolateOversampledFullCircle filled oversampleFactor nFft
  (minimumPhaseFromMagnitude realCepstrum magOSFull kMinPhaseFloorDb).map fun minPhase =>
    (List.range m).map fun k =>
      hHalfGrid.getD k 0 / toComplex (minPhase.spectrum.getD (k * oversampleFactor) 0)

/-- The rest of `excessPhase`, from `ratioRaw` on. -/
noncomputable def excessReport (ratioRaw : List ℂ) (trusted : List Bool) (sampleRate : ℝ)
    (oversampleFactor : ℕ) : Except String ExcessPhaseResult :=
  let m := ratioRaw.length
  let nFft := 2 * (m - 1)
  let binWidthHz := sampleRate / nFft
  (groupDelaySeconds ratioRaw binWidthHz kGroupDelaySmoothingBins).map fun excessGroupDelay =>
    let broadbandDelaySec := meanOfTrusted excessGroupDelay trusted
    { excessPhaseRad := (List.range m).map fun (k : ℕ) =>
        let f := k * binWidthHz
        let omega := 2 * Real.pi * f
        Complex.arg (ratioRaw.getD k 0 * Complex.exp (Complex.I * (omega * broadbandDelaySec)))
      excessGroupDelay := excessGroupDelay
      broadbandDelaySec := broadbandDelaySec
      oversampleFactor := oversampleFactor
      valid := true }

/-- `excessPhase(magnitudeHalfGrid, hHalfGrid, trusted, sampleRate, oversampleFactor)`. -/
noncomputable def excessPhase (magnitudeHalfGrid : List ℝ) (hHalfGrid : List ℂ)
    (trusted : List Bool) (sampleRate : ℝ) (oversampleFactor : ℕ) :
    Except String ExcessPhaseResult := do
  validateExcessPhase magnitudeHalfGrid hHalfGrid trusted sampleRate oversampleFactor
  if trusted.count true < kMinTrustedBins then .ok { oversampleFactor := oversampleFactor }
  else
    let ratioRaw ← excessRatio magnitudeHalfGrid hHalfGrid trusted oversampleFactor
    excessReport ratioRaw trusted sampleRate oversampleFactor

/-! ### The fill -/

section Fill

variable {trusted : List Bool} {k : ℕ}

/-- What the pass from the left leaves at a bin. -/
theorem leftTrusted_spec (trusted : List Bool) (k : ℕ) :
    (leftTrusted trusted k = -1 ∧ ∀ j ≤ k, trusted.getD j false = false) ∨
      ∃ n ≤ k, leftTrusted trusted k = n ∧ trusted.getD n false = true ∧
        ∀ j, n < j → j ≤ k → trusted.getD j false = false := by
  induction k with
  | zero =>
    rw [leftTrusted]
    split_ifs with htrusted
    · exact .inr ⟨0, le_rfl, rfl, htrusted, by omega⟩
    · refine .inl ⟨rfl, fun j hj => ?_⟩
      rw [Nat.le_zero.mp hj, Bool.eq_false_iff]
      exact htrusted
  | succ k ih =>
    rw [leftTrusted]
    split_ifs with htrusted
    · exact .inr ⟨k + 1, le_rfl, rfl, htrusted, by omega⟩
    · have hlast : ∀ j, j = k + 1 → trusted.getD j false = false := by
        rintro j rfl
        exact Bool.eq_false_iff.mpr htrusted
      obtain ⟨heq, hnone⟩ | ⟨n, hn, heq, hmark, hnone⟩ := ih
      · refine .inl ⟨heq, fun j hj => ?_⟩
        obtain hj | hj := Nat.le_succ_iff.mp hj
        · exact hnone j hj
        · exact hlast j hj
      · refine .inr ⟨n, by omega, heq, hmark, fun j hlow hj => ?_⟩
        obtain hj | hj := Nat.le_succ_iff.mp hj
        · exact hnone j hlow hj
        · exact hlast j hj

theorem rightTrustedFrom_spec (trusted : List Bool) (remaining k : ℕ) :
    (rightTrustedFrom trusted remaining k = -1 ∧
        ∀ j, k ≤ j → j < k + remaining → trusted.getD j false = false) ∨
      ∃ n, k ≤ n ∧ n < k + remaining ∧ rightTrustedFrom trusted remaining k = n ∧
        trusted.getD n false = true ∧ ∀ j, k ≤ j → j < n → trusted.getD j false = false := by
  induction remaining generalizing k with
  | zero => exact .inl ⟨rfl, by omega⟩
  | succ remaining ih =>
    rw [rightTrustedFrom]
    split_ifs with htrusted
    · exact .inr ⟨k, le_rfl, by omega, rfl, htrusted, by omega⟩
    · have hfirst : ∀ j, j = k → trusted.getD j false = false := by
        rintro j rfl
        exact Bool.eq_false_iff.mpr htrusted
      obtain ⟨heq, hnone⟩ | ⟨n, hn, hlt, heq, hmark, hnone⟩ := ih (k + 1)
      · refine .inl ⟨heq, fun j hj hlt => ?_⟩
        obtain hj | hj := hj.eq_or_lt
        · exact hfirst j hj.symm
        · exact hnone j hj (by omega)
      · refine .inr ⟨n, by omega, by omega, heq, hmark, fun j hj hlt => ?_⟩
        obtain hj | hj := hj.eq_or_lt
        · exact hfirst j hj.symm
        · exact hnone j hj hlt

/-- A bin is filled from a trusted one that is as near as any, and from the lower one of two. -/
theorem nearestTrusted_spec (hsome : true ∈ trusted) (hk : k < trusted.length) :
    nearestTrusted trusted k < trusted.length ∧
      trusted.getD (nearestTrusted trusted k) false = true ∧
      ∀ j, trusted.getD j false = true →
        |(k : ℤ) - nearestTrusted trusted k| ≤ |(k : ℤ) - j| ∧
          (|(k : ℤ) - nearestTrusted trusted k| = |(k : ℤ) - j| →
            nearestTrusted trusted k ≤ j) := by
  have hbound : ∀ j, trusted.getD j false = true → j < trusted.length := by
    intro j hj
    by_contra hge
    rw [List.getD_eq_default _ _ (not_lt.mp hge)] at hj
    cases hj
  have hleft := leftTrusted_spec trusted k
  have hright := rightTrustedFrom_spec trusted (trusted.length - k) k
  rw [Nat.add_sub_cancel' hk.le] at hright
  rw [nearestTrusted, rightTrusted]
  obtain ⟨hl, hnol⟩ | ⟨l, hlk, hl, hlmark, hnol⟩ := hleft
  · obtain ⟨hr, hnor⟩ | ⟨r, hkr, hrlen, hr, hrmark, hnor⟩ := hright
    · -- nothing is trusted
      obtain ⟨j, hj, hjmark⟩ := List.mem_iff_getElem.mp hsome
      have hmark : trusted.getD j false = true := by
        rw [List.getD_eq_getElem _ _ hj, hjmark]
      obtain hle | hlt := le_or_gt j k
      · rw [hnol j hle] at hmark
        cases hmark
      · rw [hnor j hlt.le hj] at hmark
        cases hmark
    · simp only [hl, hr]
      rw [if_pos (by decide), Int.toNat_natCast]
      refine ⟨hrlen, hrmark, fun j hj => ?_⟩
      have hjr : r ≤ j := by
        by_contra hlt
        obtain hle | hlt' := le_or_gt j k
        · rw [hnol j hle] at hj
          cases hj
        · rw [hnor j hlt'.le (by omega)] at hj
          cases hj
      rw [abs_of_nonpos (by omega), abs_of_nonpos (by omega)]
      exact ⟨by omega, fun _ => hjr⟩
  · have hjl : ∀ j, trusted.getD j false = true → j ≤ k → j ≤ l := by
      intro j hj hle
      by_contra hlt
      rw [hnol j (by omega) hle] at hj
      cases hj
    obtain ⟨hr, hnor⟩ | ⟨r, hkr, hrlen, hr, hrmark, hnor⟩ := hright
    · simp only [hl, hr]
      rw [if_neg (by omega), if_pos (by decide), Int.toNat_natCast]
      refine ⟨hbound l hlmark, hlmark, fun j hj => ?_⟩
      have hjk : j ≤ k := by
        by_contra hlt
        rw [hnor j (by omega) (hbound j hj)] at hj
        cases hj
      have hle := hjl j hj hjk
      rw [abs_of_nonneg (by omega), abs_of_nonneg (by omega)]
      exact ⟨by omega, fun heq => by omega⟩
    · simp only [hl, hr]
      rw [if_neg (by omega), if_neg (by omega)]
      have hjr : ∀ j, trusted.getD j false = true → k ≤ j → r ≤ j := by
        intro j hj hle
        by_contra hlt
        rw [hnor j hle (by omega)] at hj
        cases hj
      split_ifs with hcloser
      · rw [Int.toNat_natCast]
        refine ⟨hbound l hlmark, hlmark, fun j hj => ?_⟩
        rw [abs_of_nonneg (by omega : (0 : ℤ) ≤ k - l)]
        obtain hjk | hjk := Nat.le_total j k
        · have hle := hjl j hj hjk
          rw [abs_of_nonneg (by omega)]
          exact ⟨by omega, fun heq => by omega⟩
        · have hle := hjr j hj hjk
          rw [abs_of_nonpos (by omega)]
          exact ⟨by omega, fun heq => by omega⟩
      · rw [Int.toNat_natCast]
        refine ⟨hrlen, hrmark, fun j hj => ?_⟩
        rw [abs_of_nonpos (by omega : (k : ℤ) - r ≤ 0)]
        obtain hjk | hjk := Nat.le_total j k
        · have hle := hjl j hj hjk
          rw [abs_of_nonneg (by omega)]
          exact ⟨by omega, fun heq => by omega⟩
        · have hle := hjr j hj hjk
          rw [abs_of_nonpos (by omega)]
          exact ⟨by omega, fun heq => by omega⟩

theorem nearestTrusted_self (hk : k < trusted.length) (hmark : trusted.getD k false = true) :
    nearestTrusted trusted k = k := by
  have hsome : true ∈ trusted := by
    rw [← hmark, List.getD_eq_getElem _ _ hk]
    exact List.getElem_mem hk
  have hnear := ((nearestTrusted_spec hsome hk).2.2 k hmark).1
  rw [sub_self, abs_zero, abs_nonpos_iff] at hnear
  omega

end Fill

/-! ### The finer grid -/

section Grid

variable {filled : List ℝ} {oversampleFactor j k : ℕ}

/-- A magnitude that is not raised comes back from its level. -/
theorem pow_filledDb (filled : List ℝ) (k : ℕ) :
    (10 : ℝ) ^ (filledDb filled k / 20) = max (filled.getD k 0) 1e-20 := by
  have hpos : (0 : ℝ) < max (filled.getD k 0) 1e-20 := lt_max_of_lt_right (by norm_num)
  rw [filledDb, mul_div_cancel_left₀ _ (by norm_num),
    Real.rpow_logb (by norm_num) (by norm_num) hpos]

/-- At a multiple of the factor stands the magnitude that was filled in. -/
theorem oversampledMagnitude_mul (hfactor : 0 < oversampleFactor) (hk : k < filled.length) :
    oversampledMagnitude filled oversampleFactor (k * oversampleFactor) =
      max (filled.getD k 0) 1e-20 := by
  have hx : ((k * oversampleFactor : ℕ) : ℝ) / oversampleFactor = k := by
    push_cast
    rw [mul_div_cancel_right₀ _ (by positivity)]
  have hmin : min k (filled.length - 1) = k := min_eq_left (by omega)
  simp only [oversampledMagnitude, hx, Nat.floor_natCast, hmin]
  rw [if_pos (.inr trivial), pow_filledDb]

/-- The fraction of the way that the interpolation takes is one. -/
theorem logFraction_mem {x : ℝ} (hlow : (k : ℝ) < x) (hhigh : x < k + 1) :
    (if k = 0 then x
      else (Real.logb 10 x - Real.logb 10 k) / (Real.logb 10 ((k + 1 : ℕ) : ℝ) - Real.logb 10 k)) ∈
      Set.Icc (0 : ℝ) 1 := by
  split_ifs with hzero
  · rw [hzero, Nat.cast_zero] at hlow hhigh
    exact ⟨hlow.le, by linarith⟩
  · have hk : (0 : ℝ) < k := by exact_mod_cast Nat.pos_of_ne_zero hzero
    have hlo : Real.logb 10 k < Real.logb 10 x := Real.logb_lt_logb (by norm_num) hk hlow
    have hhi : Real.logb 10 x < Real.logb 10 ((k + 1 : ℕ) : ℝ) := by
      push_cast
      exact Real.logb_lt_logb (by norm_num) (hk.trans hlow) hhigh
    exact ⟨div_nonneg (by linarith) (by linarith), (div_le_one (by linarith)).mpr (by linarith)⟩

/-- Between two multiples the magnitude is between those at the two. -/
theorem oversampledMagnitude_mem (hfactor : 0 < oversampleFactor) (hk : k + 1 < filled.length)
    (hlow : k * oversampleFactor ≤ j) (hhigh : j ≤ (k + 1) * oversampleFactor) :
    oversampledMagnitude filled oversampleFactor j ∈
      Set.uIcc (max (filled.getD k 0) 1e-20) (max (filled.getD (k + 1) 0) 1e-20) := by
  obtain rfl | hlow := hlow.eq_or_lt
  · rw [oversampledMagnitude_mul hfactor (by omega)]
    exact Set.left_mem_uIcc
  obtain rfl | hhigh := hhigh.eq_or_lt
  · rw [oversampledMagnitude_mul hfactor hk]
    exact Set.right_mem_uIcc
  have hF : (0 : ℝ) < oversampleFactor := by exact_mod_cast hfactor
  have hxlow : (k : ℝ) < (j : ℝ) / oversampleFactor := by
    rw [lt_div_iff₀ hF]
    exact_mod_cast hlow
  have hxhigh : (j : ℝ) / oversampleFactor < k + 1 := by
    rw [div_lt_iff₀ hF]
    exact_mod_cast hhigh
  have hfloor : ⌊(j : ℝ) / oversampleFactor⌋₊ = k :=
    (Nat.floor_eq_iff (by positivity)).mpr ⟨hxlow.le, hxhigh⟩
  have hmin : min k (filled.length - 1) = k := min_eq_left (by omega)
  have hbetween : ¬ (filled.length - 1 ≤ k ∨ (j : ℝ) / oversampleFactor = k) := by
    rintro (hlast | heq)
    · omega
    · exact hxlow.ne' heq
  obtain ⟨ht0, ht1⟩ := logFraction_mem hxlow hxhigh
  simp only [oversampledMagnitude, hfloor, hmin]
  rw [if_neg hbetween, ← pow_filledDb, ← pow_filledDb]
  generalize (if k = 0 then (j : ℝ) / oversampleFactor else _) = t at ht0 ht1
  have hmono : Monotone fun db : ℝ => (10 : ℝ) ^ (db / 20) :=
    fun a b hab => Real.rpow_le_rpow_of_exponent_le (by norm_num) (by linarith)
  exact hmono.mapsTo_uIcc (PiecewiseLinear.add_mul_sub_mem_uIcc _ _ ht0 ht1)

end Grid

/-! ### The whole circle -/

section Circle

variable {filled : List ℝ} {oversampleFactor nFft j : ℕ}

theorem length_interpolate :
    (interpolateOversampledFullCircle filled oversampleFactor nFft).length =
      oversampleFactor * nFft := by
  simp only [interpolateOversampledFullCircle, List.length_map, List.length_range]

theorem getD_interpolate (hj : j < oversampleFactor * nFft) :
    (interpolateOversampledFullCircle filled oversampleFactor nFft).getD j 0 =
      oversampledMagnitude filled oversampleFactor
        (if j ≤ oversampleFactor * nFft / 2 then j else oversampleFactor * nFft - j) := by
  rw [List.getD_eq_getElem _ _ (by rw [length_interpolate]; exact hj)]
  simp only [interpolateOversampledFullCircle, List.getElem_map, List.getElem_range]

/-- The grid reads the same from the other end. -/
theorem interpolate_mirror (heven : 2 ∣ oversampleFactor * nFft) (hpos : 0 < j)
    (hj : j < oversampleFactor * nFft) :
    (interpolateOversampledFullCircle filled oversampleFactor nFft).getD
        (oversampleFactor * nFft - j) 0 =
      (interpolateOversampledFullCircle filled oversampleFactor nFft).getD j 0 := by
  rw [getD_interpolate (by omega), getD_interpolate hj]
  congr 1
  split_ifs <;> omega

end Circle

/-! ### All of it -/

theorem isPowerOfTwo_eq_true {n : ℕ} (h : isPowerOfTwo n = true) : ∃ levels, n = 2 ^ levels := by
  rw [isPowerOfTwo, Bool.and_eq_true, bne_iff_ne, beq_iff_eq] at h
  exact Nat.ne_zero_and_sub_one_eq_zero_iff_isPowerOfTwo.mp h

variable {magnitudeHalfGrid : List ℝ}

/-- What is accepted. -/
theorem validateExcessPhase_ok {hHalfGrid : List ℂ}
    {trusted : List Bool} {sampleRate : ℝ} {oversampleFactor : ℕ}
    (h : validateExcessPhase magnitudeHalfGrid hHalfGrid trusted sampleRate oversampleFactor =
      .ok ()) :
    magnitudeHalfGrid.length = trusted.length ∧ 0 < sampleRate ∧
      ∃ a b, magnitudeHalfGrid.length = 2 ^ (a + 1) + 1 ∧ oversampleFactor = 2 ^ b := by
  rw [validateExcessPhase] at h
  split_ifs at h with hlength hsize hrate hfactor
  obtain ⟨-, htrusted⟩ := not_or.mp hlength
  obtain ⟨hthree, hpower⟩ := not_or.mp hsize
  obtain ⟨-, hpower'⟩ := not_or.mp hfactor
  obtain ⟨levels, hlevels⟩ := isPowerOfTwo_eq_true (Bool.not_eq_false _ |>.mp hpower)
  obtain ⟨b, hb⟩ := isPowerOfTwo_eq_true (Bool.not_eq_false _ |>.mp hpower')
  cases levels with
  | zero => omega
  | succ a => exact ⟨not_not.mp htrusted, not_le.mp hrate, a, b, by omega, hb⟩

theorem length_filledMagnitudes (magnitudeHalfGrid : List ℝ) (trusted : List Bool) :
    (filledMagnitudes magnitudeHalfGrid trusted).length = magnitudeHalfGrid.length := by
  rw [filledMagnitudes, List.length_map, List.length_range]

theorem getD_filledMagnitudes {trusted : List Bool} {k : ℕ}
    (hlength : magnitudeHalfGrid.length = trusted.length) (hk : k < magnitudeHalfGrid.length) :
    (filledMagnitudes magnitudeHalfGrid trusted).getD k 0 =
      magnitudeHalfGrid.getD (nearestTrusted trusted k) 0 := by
  rw [List.getD_eq_getElem _ _ (by rw [length_filledMagnitudes]; exact hk)]
  simp only [filledMagnitudes, List.getElem_map, List.getElem_range]
  rw [List.getD_eq_getElem (nearestTrustedIndex trusted) _ (by
    rw [nearestTrustedIndex, List.length_map, List.length_range, ← hlength]
    exact hk)]
  simp only [nearestTrustedIndex, List.getElem_map, List.getElem_range]

theorem excessReport_ok {ratio : List ℂ} (trusted : List Bool) {sampleRate : ℝ}
    (oversampleFactor : ℕ) (hrate : 0 < sampleRate) (hratio : 1 < ratio.length) :
    ∃ result, excessReport ratio trusted sampleRate oversampleFactor = .ok result ∧
      result.valid = true := by
  have hwidth : 0 < sampleRate / ((2 * (ratio.length - 1) : ℕ) : ℝ) := by
    refine div_pos hrate ?_
    exact_mod_cast (by omega : 0 < 2 * (ratio.length - 1))
  rw [excessReport, groupDelaySeconds, if_neg (by decide), if_neg (not_not.mpr hwidth)]
  exact ⟨_, rfl, rfl⟩

theorem excessRatio_norm {hHalfGrid : List ℂ} {trusted : List Bool}
    {a b : ℕ} (hlength : magnitudeHalfGrid.length = trusted.length)
    (hsize : magnitudeHalfGrid.length = 2 ^ (a + 1) + 1) :
    ∃ ratio, excessRatio magnitudeHalfGrid hHalfGrid trusted (2 ^ b) = .ok ratio ∧
      ratio.length = magnitudeHalfGrid.length ∧
      ∀ k < magnitudeHalfGrid.length, trusted.getD k false = true →
        ‖hHalfGrid.getD k 0‖ = magnitudeHalfGrid.getD k 0 →
        10 ^ ((kMinPhaseFloorDb : ℝ) / 20) ≤ magnitudeHalfGrid.getD k 0 →
        ‖ratio.getD k 0‖ = 1 := by
  have hgrid : 2 ^ b * (2 * (magnitudeHalfGrid.length - 1)) = 2 ^ (a + b + 2) := by
    rw [hsize, Nat.add_sub_cancel]
    ring
  have hfactor : 0 < 2 ^ b := Nat.two_pow_pos b
  -- the floor of the kernel is above that of the interpolation
  have hfloorpos : (0 : ℝ) < 10 ^ ((kMinPhaseFloorDb : ℝ) / 20) :=
    Real.rpow_pos_of_pos (by norm_num) _
  have hsmall : (1e-20 : ℝ) ≤ 10 ^ ((kMinPhaseFloorDb : ℝ) / 20) := by
    have hexponent : (kMinPhaseFloorDb : ℝ) / 20 = -(6 : ℕ) := by
      rw [kMinPhaseFloorDb]
      norm_num
    rw [hexponent, Real.rpow_neg (by norm_num), Real.rpow_natCast]
    norm_num
  have hlengthOS : (interpolateOversampledFullCircle (filledMagnitudes magnitudeHalfGrid trusted)
      (2 ^ b) (2 * (magnitudeHalfGrid.length - 1))).length = 2 ^ (a + b + 2) :=
    length_interpolate.trans hgrid
  have heven : ∀ k, 0 < k → k < 2 ^ (a + b + 2) →
      (interpolateOversampledFullCircle (filledMagnitudes magnitudeHalfGrid trusted) (2 ^ b)
          (2 * (magnitudeHalfGrid.length - 1))).getD (2 ^ (a + b + 2) - k) 0 =
        (interpolateOversampledFullCircle (filledMagnitudes magnitudeHalfGrid trusted) (2 ^ b)
          (2 * (magnitudeHalfGrid.length - 1))).getD k 0 := by
    intro k hpos hlt
    rw [← hgrid] at hlt ⊢
    exact interpolate_mirror ⟨2 ^ b * (magnitudeHalfGrid.length - 1), by ring⟩ hpos hlt
  obtain ⟨H, L, hspectrum, habs, -⟩ := minimumPhaseFromMagnitude_spec (a + b) _
    (kMinPhaseFloorDb : ℝ) hlengthOS heven
  have hratio : excessRatio magnitudeHalfGrid hHalfGrid trusted (2 ^ b) =
      .ok ((List.range magnitudeHalfGrid.length).map fun k => hHalfGrid.getD k 0 /
        toComplex (((List.range (2 ^ (a + b + 2))).map H).getD (k * 2 ^ b) 0)) := by
    simp only [excessRatio, hspectrum, Except.map]
  refine ⟨_, hratio, ?_, fun k hk hmark hmeasured hfloor => ?_⟩
  · rw [List.length_map, List.length_range]
  · have hplace : k * 2 ^ b ≤ 2 ^ b * (2 * (magnitudeHalfGrid.length - 1)) / 2 := by
      have hhalf : 2 ^ b * (2 * (magnitudeHalfGrid.length - 1)) / 2 =
          (magnitudeHalfGrid.length - 1) * 2 ^ b := by
        rw [mul_left_comm, Nat.mul_div_cancel_left _ two_pos, mul_comm]
      rw [hhalf]
      exact Nat.mul_le_mul_right _ (by omega)
    have hinside : k * 2 ^ b < 2 ^ b * (2 * (magnitudeHalfGrid.length - 1)) := by
      have hpos : 0 < 2 ^ b * (2 * (magnitudeHalfGrid.length - 1)) := by
        rw [hgrid]
        exact Nat.two_pow_pos _
      omega
    have hinside' := hinside.trans_eq hgrid
    -- the grid holds the bin's own magnitude there
    have hmagnitude := habs _ hinside'
    rw [getD_interpolate hinside, if_pos hplace,
      oversampledMagnitude_mul hfactor (by rw [length_filledMagnitudes]; exact hk),
      getD_filledMagnitudes hlength hk, nearestTrusted_self (hlength ▸ hk) hmark,
      max_eq_left (hsmall.trans hfloor), max_eq_left hfloor] at hmagnitude
    rw [List.getD_eq_getElem _ _ (by rw [List.length_map, List.length_range]; exact hk),
      List.getElem_map, List.getElem_range, List.getD_eq_getElem (List.map H _) _ (by
        rw [List.length_map, List.length_range]; exact hinside'),
      List.getElem_map, List.getElem_range, norm_div, hmeasured, hmagnitude]
    exact div_self (hfloorpos.trans_le hfloor).ne'

/-- The fill and the finer grid. -/
structure OversampledGrid (magnitudeHalfGrid : List ℝ) (trusted : List Bool)
    (oversampleFactor : ℕ) (filled grid : List ℝ) : Prop where
  /-- Every bin is filled from its nearest trusted bin, the lower one of two. -/
  filled_nearest : ∀ k < magnitudeHalfGrid.length, ∃ n < magnitudeHalfGrid.length,
    trusted.getD n false = true ∧ filled.getD k 0 = magnitudeHalfGrid.getD n 0 ∧
      ∀ j, trusted.getD j false = true →
        |(k : ℤ) - n| ≤ |(k : ℤ) - j| ∧ (|(k : ℤ) - n| = |(k : ℤ) - j| → n ≤ j)
  /-- The grid is the whole circle, and even. -/
  length_grid : grid.length = oversampleFactor * (2 * (magnitudeHalfGrid.length - 1))
  mirror : ∀ j, 0 < j → j < grid.length → grid.getD (grid.length - j) 0 = grid.getD j 0
  /-- At the multiples of the factor it holds the filled magnitude, raised to `1e-20`. -/
  at_multiple : ∀ k < magnitudeHalfGrid.length,
    grid.getD (k * oversampleFactor) 0 = max (filled.getD k 0) 1e-20
  /-- Elsewhere it is between the two multiples around. -/
  between : ∀ k, k + 1 < magnitudeHalfGrid.length → ∀ j, k * oversampleFactor ≤ j →
    j ≤ (k + 1) * oversampleFactor →
    grid.getD j 0 ∈
      Set.uIcc (grid.getD (k * oversampleFactor) 0) (grid.getD ((k + 1) * oversampleFactor) 0)

theorem oversampledGrid {trusted : List Bool} {oversampleFactor : ℕ}
    (hlength : magnitudeHalfGrid.length = trusted.length) (hsome : true ∈ trusted)
    (hfactor : 0 < oversampleFactor) (hsize : 1 < magnitudeHalfGrid.length) :
    OversampledGrid magnitudeHalfGrid trusted oversampleFactor
      (filledMagnitudes magnitudeHalfGrid trusted)
      (interpolateOversampledFullCircle (filledMagnitudes magnitudeHalfGrid trusted)
        oversampleFactor (2 * (magnitudeHalfGrid.length - 1))) := by
  have hhalf : oversampleFactor * (2 * (magnitudeHalfGrid.length - 1)) / 2 =
      (magnitudeHalfGrid.length - 1) * oversampleFactor := by
    rw [mul_left_comm, Nat.mul_div_cancel_left _ two_pos, mul_comm]
  have hpos : 0 < oversampleFactor * (2 * (magnitudeHalfGrid.length - 1)) :=
    Nat.mul_pos hfactor (by omega)
  -- the lower half of the circle is the interpolated half grid
  have hlower : ∀ j ≤ (magnitudeHalfGrid.length - 1) * oversampleFactor,
      (interpolateOversampledFullCircle (filledMagnitudes magnitudeHalfGrid trusted)
        oversampleFactor (2 * (magnitudeHalfGrid.length - 1))).getD j 0 =
        oversampledMagnitude (filledMagnitudes magnitudeHalfGrid trusted) oversampleFactor j := by
    intro j hj
    rw [getD_interpolate (by omega), hhalf, if_pos hj]
  have hmultiple : ∀ k < magnitudeHalfGrid.length,
      (interpolateOversampledFullCircle (filledMagnitudes magnitudeHalfGrid trusted)
        oversampleFactor (2 * (magnitudeHalfGrid.length - 1))).getD (k * oversampleFactor) 0 =
        max ((filledMagnitudes magnitudeHalfGrid trusted).getD k 0) 1e-20 := by
    intro k hk
    rw [hlower _ (Nat.mul_le_mul_right _ (by omega)),
      oversampledMagnitude_mul hfactor (by rw [length_filledMagnitudes]; exact hk)]
  constructor
  · intro k hk
    obtain ⟨hn, hmark, hnear⟩ := nearestTrusted_spec hsome (hlength ▸ hk)
    exact ⟨_, hlength ▸ hn, hmark, getD_filledMagnitudes hlength hk, hnear⟩
  · exact length_interpolate
  · intro j hj hlt
    rw [length_interpolate] at hlt ⊢
    exact interpolate_mirror ⟨oversampleFactor * (magnitudeHalfGrid.length - 1), by ring⟩ hj hlt
  · exact hmultiple
  · intro k hk j hlow hhigh
    rw [hmultiple k (by omega), hmultiple (k + 1) hk,
      hlower j (hhigh.trans (Nat.mul_le_mul_right _ (by omega)))]
    exact oversampledMagnitude_mem hfactor (by rw [length_filledMagnitudes]; exact hk) hlow hhigh

/-- **Headline.** The fill, the finer grid and the ratio that is reported: at a trusted bin whose
magnitude is the given one and is not below the floor the ratio has modulus one. -/
theorem excessPhase_spec (magnitudeHalfGrid : List ℝ) (hHalfGrid : List ℂ) (trusted : List Bool)
    (sampleRate : ℝ) (oversampleFactor : ℕ)
    (haccept : validateExcessPhase magnitudeHalfGrid hHalfGrid trusted sampleRate
      oversampleFactor = .ok ())
    (htrusted : 2 ≤ trusted.count true) :
    OversampledGrid magnitudeHalfGrid trusted oversampleFactor
        (filledMagnitudes magnitudeHalfGrid trusted)
        (interpolateOversampledFullCircle (filledMagnitudes magnitudeHalfGrid trusted)
          oversampleFactor (2 * (magnitudeHalfGrid.length - 1))) ∧
      ∃ ratio result,
        excessRatio magnitudeHalfGrid hHalfGrid trusted oversampleFactor = .ok ratio ∧
        excessReport ratio trusted sampleRate oversampleFactor = .ok result ∧
        excessPhase magnitudeHalfGrid hHalfGrid trusted sampleRate oversampleFactor = .ok result ∧
        result.valid = true ∧
        ∀ k < magnitudeHalfGrid.length, trusted.getD k false = true →
          ‖hHalfGrid.getD k 0‖ = magnitudeHalfGrid.getD k 0 →
          10 ^ ((kMinPhaseFloorDb : ℝ) / 20) ≤ magnitudeHalfGrid.getD k 0 →
          ‖ratio.getD k 0‖ = 1 := by
  obtain ⟨hlength, hrate, a, b, hsize, rfl⟩ := validateExcessPhase_ok haccept
  have hlarge : 1 < magnitudeHalfGrid.length := by
    have := Nat.two_pow_pos (a + 1)
    omega
  have hsome : true ∈ trusted := List.count_pos_iff.mp (by omega)
  obtain ⟨ratio, hratio, hratiolength, hnorm⟩ := @excessRatio_norm _ hHalfGrid _ _ b hlength
    hsize
  obtain ⟨result, hresult, hvalid⟩ := excessReport_ok trusted (2 ^ b) hrate
    (hratiolength ▸ hlarge)
  refine ⟨oversampledGrid hlength hsome (Nat.two_pow_pos b) hlarge, ratio, result, hratio, hresult,
    ?_, hvalid, hnorm⟩
  rw [excessPhase, haccept]
  simp only [bind, Except.bind, hratio]
  rw [if_neg (by rw [kMinTrustedBins]; omega)]
  exact hresult

/-- Three bins of magnitude one. -/
theorem excessPhase_spec_three : ∃ ratio,
    excessRatio [1, 1, 1] [1, 1, 1] [true, true, true] 1 = .ok ratio ∧ ‖ratio.getD 1 0‖ = 1 := by
  have haccept : validateExcessPhase [1, 1, 1] [1, 1, 1] [true, true, true] 48000 1 = .ok () := by
    rw [validateExcessPhase]
    norm_num [isPowerOfTwo]
  obtain ⟨-, ratio, result, hratio, -, -, -, hnorm⟩ := excessPhase_spec [1, 1, 1] [1, 1, 1]
    [true, true, true] 48000 1 haccept (by decide)
  refine ⟨ratio, hratio, hnorm 1 (by decide) rfl ?_ ?_⟩
  · simp
  · exact Real.rpow_le_one_of_one_le_of_nonpos (by norm_num) (by norm_num [kMinPhaseFloorDb])

/-- A magnitude of zero is raised on the grid. -/
theorem interpolate_raises_zero :
    validateExcessPhase [0, 0, 0] [0, 0, 0] [true, true, true] 48000 1 = .ok () ∧
      (interpolateOversampledFullCircle (filledMagnitudes [0, 0, 0] [true, true, true]) 1 4).getD
        (0 * 1) 0 ≠ (filledMagnitudes [0, 0, 0] [true, true, true]).getD 0 0 := by
  constructor
  · rw [validateExcessPhase]
    norm_num [isPowerOfTwo]
  · have hgrid := @oversampledGrid [0, 0, 0] [true, true, true] 1 rfl (by decide) one_pos
      (by decide)
    have hzero := hgrid.at_multiple 0 (by decide)
    have hfilled : (filledMagnitudes [0, 0, 0] [true, true, true]).getD 0 0 = (0 : ℝ) := rfl
    rw [hfilled] at hzero ⊢
    rw [show 4 = 2 * (([0, 0, 0] : List ℝ).length - 1) from rfl, hzero]
    norm_num

end Dsp

end RtaTool
