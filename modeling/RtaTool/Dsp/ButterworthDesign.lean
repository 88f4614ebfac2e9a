import RtaTool.Dsp.BiquadResponse
import RtaTool.Lib.TakeSmallest

/-!
# The Butterworth band-pass

`ButterworthDesign.cpp` in exact arithmetic: the prototype's poles, the low-pass to band-pass step,
the bilinear transform and the pairing of what comes out into second-order sections. The two sorts
of the source keep no order of equal values; here they are stable, and nothing below depends on it.

The pairing expects poles that are not real. A prototype of odd order has a real pole, which a wide
band splits into two real ones, and the arguments are accepted before that is seen.

## Main definitions

* `Zpk`, `buttapPoles`, `lowPassToBandPass`, `bilinearZpk`, `bandPassZpk`
* `splitConjugateReal`, `pairIntoSections`, `bandPass`

## Main results

* `splitConjugateReal_of_conj` -- poles in conjugate pairs are split into pairs
* `fillSections_spec` -- every pole pair and every zero goes into one section
-/

namespace RtaTool

namespace Dsp

open AutoEq
open scoped ComplexConjugate

/-! ### `ButterworthDesign.cpp` -/

/-- What is thrown. -/
inductive DesignError
  | invalidArgument (what : String)
  | logicError (what : String)

/-- `Zpk`. -/
structure Zpk where
  zeros : List ℂ
  poles : List ℂ
  gain : ℝ

/-- `validateInputs(lowerHz, upperHz, sampleRate, sections)`. -/
noncomputable def ButterworthDesign.validateInputs (lowerHz upperHz sampleRate : ℝ) (sections : ℤ) :
    Except DesignError Unit :=
  if sections < 1 ∨ 12 < sections then
    .error (.invalidArgument "ButterworthDesign: sections must be in 1..12")
  else if ¬ 0 < sampleRate then
    .error (.invalidArgument "ButterworthDesign: sampleRate must be positive")
  else if ¬ 0 < lowerHz then
    .error (.invalidArgument "ButterworthDesign: lowerHz must be positive")
  else if ¬ lowerHz < upperHz then
    .error (.invalidArgument "ButterworthDesign: needs lowerHz < upperHz")
  else .ok ()

/-- The angle of the prototype's pole `k`. -/
noncomputable def buttapAngle (n : ℤ) (k : ℤ) : ℝ := Real.pi * (2 * k - n - 1) / (2 * n)

/-- `buttapPoles(n)`. -/
noncomputable def buttapPoles (n : ℤ) : List ℂ :=
  (List.range n.toNat).map fun (i : ℕ) => -Complex.exp (buttapAngle n (i + 1) * Complex.I)

/-- `prewarp(hz, sampleRate)`. -/
noncomputable def prewarp (hz sampleRate : ℝ) : ℝ :=
  2 * sampleRate * Real.tan (Real.pi * hz / sampleRate)

/-- `std::sqrt` of a complex number. -/
noncomputable def complexSqrt (z : ℂ) : ℂ := z ^ ((2 : ℕ)⁻¹ : ℂ)

/-- `lowPassToBandPass(protoPoles, w0, bw)`. -/
noncomputable def lowPassToBandPass (protoPoles : List ℂ) (w0 bw : ℝ) : Zpk :=
  { zeros := List.replicate protoPoles.length 0
    poles := protoPoles.flatMap fun (p : ℂ) =>
      let s := p * (bw / 2)
      let disc := complexSqrt (s * s - w0 * w0)
      [s + disc, s - disc]
    gain := bw ^ protoPoles.length }

/-- `bilinear(analog, sampleRate)`. -/
noncomputable def bilinearZpk (analog : Zpk) (sampleRate : ℝ) : Zpk :=
  let fs2 : ℂ := (2 * sampleRate : ℝ)
  let degree := analog.poles.length - analog.zeros.length
  let numProd := (analog.zeros.map fun z => fs2 - z).prod
  let denProd := (analog.poles.map fun p => fs2 - p).prod
  { zeros := analog.zeros.map (fun z => (fs2 + z) / (fs2 - z)) ++ List.replicate degree (-1)
    poles := analog.poles.map fun p => (fs2 + p) / (fs2 - p)
    gain := analog.gain * (numProd / denProd).re }

/-- `ConjugateSplit`. -/
structure ConjugateSplit where
  complexReps : List ℂ
  reals : List ℝ

noncomputable def kConjugateTolerance : ℝ := 1e-10

/-- What the split takes to be real. -/
def NearReal (v : ℂ) : Prop := |v.im| ≤ kConjugateTolerance * max 1 ‖v‖

noncomputable instance (v : ℂ) : Decidable (NearReal v) := inferInstanceAs (Decidable (_ ≤ _))

def noMatchingConjugate : DesignError :=
  .logicError "ButterworthDesign: complex value with no matching conjugate"

/-- The matching loop of `splitConjugateReal`: the values above the real axis, and those below that
are not used yet. -/
noncomputable def matchConjugates : List ℂ → List ℂ → Except DesignError (List ℂ)
  | [], _ => .ok []
  | p :: pos, neg =>
    match takeSmallest (fun q => ‖p - conj q‖) neg with
    | none => .error noMatchingConjugate
    | some (q, neg) =>
      if kConjugateTolerance * max 1 ‖p‖ < ‖p - conj q‖ then .error noMatchingConjugate
      else (matchConjugates pos neg).map fun reps => (p + conj q) / 2 :: reps

/-- `splitConjugateReal(values)`. -/
noncomputable def splitConjugateReal (values : List ℂ) : Except DesignError ConjugateSplit :=
  let values := values.mergeSort fun a b =>
    ¬ (if b.re ≠ a.re then b.re < a.re else |b.im| < |a.im|)
  let reals := (values.filter fun v => NearReal v).map Complex.re
  let complexVals := values.filter fun v => ¬ NearReal v
  let pos := complexVals.filter fun v => 0 < v.im
  let neg := complexVals.filter fun v => ¬ 0 < v.im
  if pos.length ≠ neg.length then .error noMatchingConjugate
  else
    (matchConjugates pos neg).map fun reps =>
      { complexReps := reps.mergeSort fun a b =>
          ¬ (if b.re ≠ a.re then b.re < a.re else b.im < a.im)
        reals := reals.mergeSort fun a b => a ≤ b }

/-- `ButterworthDesign::bandPassZpk(lowerHz, upperHz, sampleRate, sections)`. -/
noncomputable def bandPassZpk (lowerHz upperHz sampleRate : ℝ) (sections : ℤ) :
    Except DesignError Zpk :=
  (ButterworthDesign.validateInputs lowerHz upperHz sampleRate sections).map fun _ =>
    let protoPoles := buttapPoles sections
    let wLo := prewarp lowerHz sampleRate
    let wHi := prewarp upperHz sampleRate
    let bw := wHi - wLo
    let w0 := √(wLo * wHi)
    bilinearZpk (lowPassToBandPass protoPoles w0 bw) sampleRate

/-- The section of a pole pair and two zeros. -/
noncomputable def pairedSection (p1 : ℂ) (z1 z2 : ℝ) : BiquadCoeffs ℝ :=
  let p2 := conj p1
  { b0 := 1, b1 := -(z1 + z2), b2 := z1 * z2, a1 := -(p1 + p2).re, a2 := (p1 * p2).re }

/-- The filling loop of `pairIntoSections`, from the last slot down: the poles and zeros that are
not used yet, and the sections above. There are two zeros for every pole, so that none of the scans
comes to nothing. -/
noncomputable def fillSections : ℕ → List ℂ → List ℝ → List (BiquadCoeffs ℝ) →
    List (BiquadCoeffs ℝ)
  | 0, _, _, sections => sections
  | slot + 1, poles, zeros, sections =>
    match takeSmallest (fun p => |1 - ‖p‖|) poles with
    | none => sections
    | some (p1, poles) =>
      match takeSmallest (fun z : ℝ => ‖(z : ℂ) - p1‖) zeros with
      | none => sections
      | some (z1, zeros) =>
        match takeSmallest (fun z : ℝ => ‖(z : ℂ) - p1‖) zeros with
        | none => sections
        | some (z2, zeros) => fillSections slot poles zeros (pairedSection p1 z1 z2 :: sections)

/-- The whole gain lands in section 0. -/
def gainIntoFirst (gain : ℝ) : List (BiquadCoeffs ℝ) → List (BiquadCoeffs ℝ)
  | [] => []
  | c :: sections => { c with b0 := c.b0 * gain, b1 := c.b1 * gain, b2 := c.b2 * gain } :: sections

def unexpectedShape : DesignError :=
  .logicError ("ButterworthDesign::pairIntoSections: expected all-complex poles and " ++
    "all-real zeros, per the band-pass design chain")

/-- `ButterworthDesign::pairIntoSections(zpk)`. -/
noncomputable def pairIntoSections (zpk : Zpk) : Except DesignError (List (BiquadCoeffs ℝ)) := do
  let poleSplit ← splitConjugateReal zpk.poles
  let zeroSplit ← splitConjugateReal zpk.zeros
  if ¬ poleSplit.reals.isEmpty ∨ ¬ zeroSplit.complexReps.isEmpty then
    .error unexpectedShape
  else
    let n := poleSplit.complexReps.length
    if zeroSplit.reals.length ≠ 2 * n then
      .error (.logicError "ButterworthDesign::pairIntoSections: pole/zero count mismatch")
    else
      .ok (gainIntoFirst zpk.gain (fillSections n poleSplit.complexReps zeroSplit.reals []))

/-- `BiquadCascade::maxPoleRadius`. -/
noncomputable def maxPoleRadius (sections : List (BiquadCoeffs ℝ)) : ℝ :=
  sections.foldl (fun worst c => max worst (sectionPoleRadius c)) 0

noncomputable def kNyquistEdgeFraction : ℝ := 0.995

/-- `ButterworthDesign::Result`. -/
structure DesignResult where
  sections : List (BiquadCoeffs ℝ)
  lowerHz : ℝ
  upperHz : ℝ
  maxPoleRadius : ℝ
  nyquistClamped : Bool

/-- The upper edge that is designed. -/
noncomputable def designedUpper (upperHz sampleRate : ℝ) : ℝ :=
  let nyquistLimit := kNyquistEdgeFraction * (sampleRate / 2)
  if nyquistLimit < upperHz then nyquistLimit else upperHz

/-- `ButterworthDesign::bandPass(lowerHz, upperHz, sampleRate, sections)`. -/
noncomputable def bandPass (lowerHz upperHz sampleRate : ℝ) (sections : ℤ) :
    Except DesignError DesignResult := do
  ButterworthDesign.validateInputs lowerHz upperHz sampleRate sections
  if ¬ lowerHz < designedUpper upperHz sampleRate then
    .error
      (.invalidArgument "ButterworthDesign: clamped upper edge is at or below lowerHz")
  else
    let zpk ← bandPassZpk lowerHz (designedUpper upperHz sampleRate) sampleRate sections
    let result ← pairIntoSections zpk
    .ok
      { sections := result
        lowerHz := lowerHz
        upperHz := designedUpper upperHz sampleRate
        maxPoleRadius := maxPoleRadius result
        nyquistClamped := kNyquistEdgeFraction * (sampleRate / 2) < upperHz }

/-! ### Splitting -/

theorem matchConjugates_of_perm {pos neg : List ℂ} (hneg : neg.Perm (pos.map conj)) :
    matchConjugates pos neg = .ok pos := by
  induction pos generalizing neg with
  | nil => rfl
  | cons p pos ih =>
    have hne : neg ≠ [] := by
      rintro rfl
      exact absurd hneg.nil_eq (by simp)
    obtain ⟨q, rest, htake, hperm, hmin⟩ := takeSmallest_of_ne_nil (fun q => ‖p - conj q‖) hne
    -- the conjugate is there, at no distance
    have hmem : conj p ∈ neg := hneg.mem_iff.mpr (by simp)
    have hdist : ‖p - conj q‖ = 0 := by
      have hle := hmin _ hmem
      rw [Complex.conj_conj, sub_self, norm_zero] at hle
      exact le_antisymm hle (norm_nonneg _)
    have hp : conj q = p := (sub_eq_zero.mp (norm_eq_zero.mp hdist)).symm
    have hq : q = conj p := by rw [← hp, Complex.conj_conj]
    have hrest : rest.Perm (pos.map conj) := by
      have hcons := hperm.symm.trans hneg
      rw [List.map_cons, hq] at hcons
      exact hcons.cons_inv
    have htolerance : ¬ kConjugateTolerance * max 1 ‖p‖ < ‖p - conj q‖ := by
      rw [hdist, not_lt, kConjugateTolerance]
      positivity
    rw [matchConjugates, htake]
    dsimp only
    rw [if_neg htolerance, ih hrest, hp]
    simp [Except.map]

theorem matchConjugates_error (pos neg : List ℂ) :
    (∃ reps, matchConjugates pos neg = .ok reps) ∨
      matchConjugates pos neg = .error noMatchingConjugate := by
  induction pos generalizing neg with
  | nil => exact .inl ⟨[], rfl⟩
  | cons p pos ih =>
    rw [matchConjugates.eq_def]
    dsimp only
    cases takeSmallest (fun q => ‖p - conj q‖) neg with
    | none => exact .inr rfl
    | some taken =>
      obtain ⟨q, rest⟩ := taken
      dsimp only
      split_ifs
      · exact .inr rfl
      · obtain ⟨reps, hreps⟩ | herror := ih rest
        · rw [hreps]
          exact .inl ⟨_, rfl⟩
        · rw [herror]
          exact .inr rfl

theorem splitConjugateReal_error (values : List ℂ) :
    (∃ split, splitConjugateReal values = .ok split) ∨
      splitConjugateReal values = .error noMatchingConjugate := by
  rw [splitConjugateReal]
  split_ifs
  · exact .inr rfl
  · obtain ⟨reps, hreps⟩ | herror := matchConjugates_error _ _
    · rw [hreps]
      exact .inl ⟨_, rfl⟩
    · rw [herror]
      exact .inr rfl

variable {values : List ℂ}

theorem reals_ne_nil_of_nearReal {split : ConjugateSplit}
    (hsplit : splitConjugateReal values = .ok split) {v : ℂ} (hv : v ∈ values)
    (hnear : NearReal v) : split.reals ≠ [] := by
  rw [splitConjugateReal] at hsplit
  split_ifs at hsplit
  generalize matchConjugates _ _ = matched at hsplit
  cases matched with
  | error e => cases hsplit
  | ok reps =>
    cases hsplit
    refine List.ne_nil_of_mem (List.mem_mergeSort.mpr (List.mem_map.mpr ⟨v, ?_, rfl⟩))
    exact List.mem_filter.mpr ⟨List.mem_mergeSort.mpr hv, decide_eq_true hnear⟩

theorem nearReal_of_im_eq_zero {v : ℂ} (hv : v.im = 0) : NearReal v := by
  rw [NearReal, hv, abs_zero, kConjugateTolerance]
  positivity

theorem filter_below_perm (hconj : values.Perm (values.map conj)) (hne : ∀ v ∈ values, v.im ≠ 0) :
    (values.filter fun v => ¬ 0 < v.im).Perm ((values.filter fun v => 0 < v.im).map conj) := by
  refine (hconj.filter _).trans (.of_eq ?_)
  rw [List.filter_map]
  congr 1
  refine List.filter_congr fun v hv => ?_
  have him := hne v hv
  simp only [Function.comp_apply, Complex.conj_im, decide_eq_decide, not_lt, neg_nonpos]
  exact ⟨fun h => lt_of_le_of_ne h him.symm, le_of_lt⟩

/-- Values in conjugate pairs, none of them near the real axis. -/
theorem splitConjugateReal_of_conj (hconj : values.Perm (values.map conj))
    (hclear : ∀ v ∈ values, ¬ NearReal v) :
    ∃ reps, splitConjugateReal values = .ok { complexReps := reps, reals := [] } ∧
      reps.Perm (values.filter fun v => 0 < v.im) := by
  rw [splitConjugateReal]
  generalize hsorted : values.mergeSort _ = sorted
  have hperm : sorted.Perm values := by
    rw [← hsorted]
    exact List.mergeSort_perm _ _
  have hclear' : ∀ v ∈ sorted, ¬ NearReal v := fun v hv => hclear v (hperm.mem_iff.mp hv)
  have hnone : (sorted.filter fun v => NearReal v) = [] := by
    refine List.filter_eq_nil_iff.mpr fun v hv => ?_
    rw [decide_eq_true_eq]
    exact hclear' v hv
  have hall : (sorted.filter fun v => ¬ NearReal v) = sorted :=
    List.filter_eq_self.mpr fun v hv => decide_eq_true (hclear' v hv)
  have hbelow := filter_below_perm (hperm.trans (hconj.trans (hperm.symm.map _)))
    fun v hv him => hclear' v hv (nearReal_of_im_eq_zero him)
  have hlength := hbelow.length_eq
  rw [List.length_map] at hlength
  simp only [hnone, hall, List.map_nil, List.mergeSort_nil]
  rw [if_neg (not_not.mpr hlength.symm), matchConjugates_of_perm hbelow]
  exact ⟨_, rfl, (List.mergeSort_perm _ _).trans (hperm.filter _)⟩

theorem splitConjugateReal_of_real (hreal : ∀ v ∈ values, v.im = 0) :
    ∃ reals, splitConjugateReal values = .ok { complexReps := [], reals := reals } ∧
      reals.Perm (values.map Complex.re) := by
  rw [splitConjugateReal]
  generalize hsorted : values.mergeSort _ = sorted
  have hperm : sorted.Perm values := by
    rw [← hsorted]
    exact List.mergeSort_perm _ _
  have hnear : ∀ v ∈ sorted, NearReal v :=
    fun v hv => nearReal_of_im_eq_zero (hreal v (hperm.mem_iff.mp hv))
  have hall : (sorted.filter fun v => NearReal v) = sorted :=
    List.filter_eq_self.mpr fun v hv => decide_eq_true (hnear v hv)
  have hnone : (sorted.filter fun v => ¬ NearReal v) = [] := by
    refine List.filter_eq_nil_iff.mpr fun v hv => ?_
    rw [decide_eq_true_eq, not_not]
    exact hnear v hv
  simp only [hnone, hall, List.filter_nil, List.length_nil, ne_eq, not_true_eq_false, if_false,
    matchConjugates, Except.map, List.mergeSort_nil]
  exact ⟨_, rfl, (List.mergeSort_perm _ _).trans (hperm.map _)⟩

/-! ### Pairing -/

theorem pairedSection_numerator (p1 : ℂ) (z1 z2 : ℝ) (zInv : ℂ) :
    biquadNumerator (pairedSection p1 z1 z2) zInv = (1 - z1 * zInv) * (1 - z2 * zInv) := by
  simp only [biquadNumerator, pairedSection]
  push_cast
  ring

theorem pairedSection_denominator (p1 : ℂ) (z1 z2 : ℝ) (zInv : ℂ) :
    biquadDenominator (pairedSection p1 z1 z2) zInv = (1 - p1 * zInv) * (1 - conj p1 * zInv) := by
  have hsum : ((p1 + conj p1).re : ℂ) = p1 + conj p1 := by
    rw [Complex.add_conj]
    simp
  have hprod : ((p1 * conj p1).re : ℂ) = p1 * conj p1 := by
    rw [Complex.mul_conj]
    simp
  simp only [biquadDenominator, pairedSection, Complex.ofReal_neg]
  rw [hsum, hprod]
  ring

theorem pairedSection_isPole {p1 : ℂ} {z1 z2 : ℝ} (z : ℂ) :
    IsPole (pairedSection p1 z1 z2) z ↔ z = p1 ∨ z = conj p1 := by
  have hsum : ((p1 + conj p1).re : ℂ) = p1 + conj p1 := by
    rw [Complex.add_conj]
    simp
  have hprod : ((p1 * conj p1).re : ℂ) = p1 * conj p1 := by
    rw [Complex.mul_conj]
    simp
  have hfactor : z ^ 2 + (pairedSection p1 z1 z2).a1 * z + (pairedSection p1 z1 z2).a2 =
      (z - p1) * (z - conj p1) := by
    simp only [pairedSection, Complex.ofReal_neg]
    rw [hsum, hprod]
    ring
  rw [IsPole, hfactor, mul_eq_zero, sub_eq_zero, sub_eq_zero]

theorem pairedSection_radius (p1 : ℂ) (z1 z2 : ℝ) :
    sectionPoleRadius (pairedSection p1 z1 z2) = ‖p1‖ := by
  refine (isGreatest_sectionPoleRadius _).unique ⟨⟨p1, ?_, rfl⟩, ?_⟩
  · exact (pairedSection_isPole p1).mpr (.inl rfl)
  · rintro r ⟨z, hz, rfl⟩
    obtain rfl | rfl := (pairedSection_isPole z).mp hz
    · exact le_rfl
    · exact (Complex.norm_conj p1).le

/-- What the loop keeps: as many sections as slots, in order, and nothing of the poles and zeros
lost. -/
theorem fillSections_spec {poles : List ℂ} {zeros : List ℝ} {sections : List (BiquadCoeffs ℝ)}
    {slot : ℕ} (hslot : poles.length = slot) (hinside : ∀ p ∈ poles, ‖p‖ < 1)
    (hzeros : zeros.length = 2 * slot)
    (hsorted : (sections.map sectionPoleRadius).Pairwise (· ≤ ·))
    (hbelow : ∀ p ∈ poles, ∀ c ∈ sections, ‖p‖ ≤ sectionPoleRadius c) :
    (fillSections slot poles zeros sections).length = slot + sections.length ∧
      ((fillSections slot poles zeros sections).map sectionPoleRadius).Pairwise (· ≤ ·) ∧
      (∀ c ∈ fillSections slot poles zeros sections, c ∈ sections ∨
        ∃ p ∈ poles, ∃ z1 z2, c = pairedSection p z1 z2) ∧
      ∀ zInv,
        ((fillSections slot poles zeros sections).map fun c => biquadNumerator c zInv).prod =
            (zeros.map fun z : ℝ => 1 - (z : ℂ) * zInv).prod *
              (sections.map fun c => biquadNumerator c zInv).prod ∧
          ((fillSections slot poles zeros sections).map fun c => biquadDenominator c zInv).prod =
            (poles.map fun p => (1 - p * zInv) * (1 - conj p * zInv)).prod *
              (sections.map fun c => biquadDenominator c zInv).prod := by
  induction slot generalizing poles zeros sections with
  | zero =>
    rw [List.length_eq_zero_iff.mp hslot, List.length_eq_zero_iff.mp hzeros, fillSections]
    refine ⟨(zero_add _).symm, hsorted, fun c hc => .inl hc, fun zInv => ?_⟩
    simp
  | succ slot ih =>
    have hpoles : poles ≠ [] := by
      rintro rfl
      cases hslot
    obtain ⟨p1, poles', htake, hpermp, hmin⟩ :=
      takeSmallest_of_ne_nil (fun p : ℂ => |1 - ‖p‖|) hpoles
    have hz1 : zeros ≠ [] := List.ne_nil_of_length_pos (by omega)
    obtain ⟨z1, zeros1, htake1, hperm1, -⟩ :=
      takeSmallest_of_ne_nil (fun z : ℝ => ‖(z : ℂ) - p1‖) hz1
    have hlength1 := hperm1.length_eq
    rw [List.length_cons] at hlength1
    have hz2 : zeros1 ≠ [] := List.ne_nil_of_length_pos (by omega)
    obtain ⟨z2, zeros2, htake2, hperm2, -⟩ :=
      takeSmallest_of_ne_nil (fun z : ℝ => ‖(z : ℂ) - p1‖) hz2
    have hlength2 := hperm2.length_eq
    rw [List.length_cons] at hlength2
    have hlengthp := hpermp.length_eq
    rw [List.length_cons] at hlengthp
    have hp1 : p1 ∈ poles := hpermp.mem_iff.mpr (List.mem_cons_self ..)
    have hrest : ∀ p ∈ poles', p ∈ poles :=
      fun p hp => hpermp.mem_iff.mpr (List.mem_cons_of_mem _ hp)
    -- the pole that is taken is the one closest to the unit circle
    have hclosest : ∀ p ∈ poles, ‖p‖ ≤ ‖p1‖ := by
      intro p hp
      have hle := hmin p hp
      rw [abs_of_pos (by linarith [hinside p1 hp1]), abs_of_pos (by linarith [hinside p hp])] at hle
      linarith
    have hsorted1 : ((pairedSection p1 z1 z2 :: sections).map sectionPoleRadius).Pairwise
        (· ≤ ·) := by
      rw [List.map_cons, List.pairwise_cons, pairedSection_radius]
      refine ⟨fun r hr => ?_, hsorted⟩
      obtain ⟨c, hc, rfl⟩ := List.mem_map.mp hr
      exact hbelow p1 hp1 c hc
    have hbelow1 : ∀ p ∈ poles', ∀ c ∈ pairedSection p1 z1 z2 :: sections,
        ‖p‖ ≤ sectionPoleRadius c := by
      intro p hp c hc
      obtain rfl | hc := List.mem_cons.mp hc
      · rw [pairedSection_radius]
        exact hclosest p (hrest p hp)
      · exact hbelow p (hrest p hp) c hc
    obtain ⟨hlength, hsorted', hmem, hprod⟩ := @ih poles' zeros2 _ (by omega)
      (fun p hp => hinside p (hrest p hp)) (by omega) hsorted1 hbelow1
    rw [fillSections, htake]
    dsimp only
    rw [htake1]
    dsimp only
    rw [htake2]
    dsimp only
    refine ⟨?_, hsorted', fun c hc => ?_, fun zInv => ?_⟩
    · rw [hlength, List.length_cons]
      omega
    · obtain hc | ⟨p, hp, hc⟩ := hmem c hc
      · obtain rfl | hc := List.mem_cons.mp hc
        · exact .inr ⟨p1, hp1, z1, z2, rfl⟩
        · exact .inl hc
      · exact .inr ⟨p, hrest p hp, hc⟩
    · obtain ⟨hnum, hden⟩ := hprod zInv
      constructor
      · rw [hnum, List.map_cons, List.prod_cons, pairedSection_numerator,
          (hperm1.map _).prod_eq, List.map_cons, List.prod_cons, (hperm2.map _).prod_eq,
          List.map_cons, List.prod_cons]
        ring
      · rw [hden, List.map_cons, List.prod_cons, pairedSection_denominator,
          (hpermp.map _).prod_eq, List.map_cons, List.prod_cons]
        ring

theorem pairedSection_stable {p1 : ℂ} (hp : ‖p1‖ < 1) (z1 z2 : ℝ) :
    Stable (pairedSection p1 z1 z2) := by
  have hsq : (p1 * conj p1).re = ‖p1‖ ^ 2 := by
    rw [Complex.mul_conj, Complex.normSq_eq_norm_sq, Complex.ofReal_re]
  have hsum : (p1 + conj p1).re = 2 * p1.re := by
    rw [Complex.add_re, Complex.conj_re]
    ring
  have hre := abs_le.mp (Complex.abs_re_le_norm p1)
  have hpos := norm_nonneg p1
  have hgap : 0 < (1 - ‖p1‖) ^ 2 := pow_pos (by linarith) 2
  refine ⟨?_, ?_⟩
  · change |(p1 * conj p1).re| < 1
    rw [hsq, abs_of_nonneg (sq_nonneg _)]
    nlinarith
  · change |-(p1 + conj p1).re| < 1 + (p1 * conj p1).re
    rw [hsq, hsum, abs_lt]
    constructor
    · nlinarith
    · nlinarith

section Gain

variable {gain : ℝ} {sections : List (BiquadCoeffs ℝ)}

theorem gainIntoFirst_radius :
    (gainIntoFirst gain sections).map sectionPoleRadius = sections.map sectionPoleRadius := by
  cases sections <;> rfl

theorem gainIntoFirst_length : (gainIntoFirst gain sections).length = sections.length := by
  cases sections <;> rfl

theorem gainIntoFirst_stable (h : ∀ c ∈ sections, Stable c) :
    ∀ c ∈ gainIntoFirst gain sections, Stable c := by
  cases sections with
  | nil => exact h
  | cons c sections =>
    obtain ⟨hc, hsections⟩ := List.forall_mem_cons.mp h
    exact List.forall_mem_cons.mpr ⟨hc, hsections⟩

theorem gainIntoFirst_denominator (zInv : ℂ) :
    ((gainIntoFirst gain sections).map fun c => biquadDenominator c zInv).prod =
      (sections.map fun c => biquadDenominator c zInv).prod := by
  cases sections <;> rfl

theorem gainIntoFirst_numerator (hne : sections ≠ []) (zInv : ℂ) :
    ((gainIntoFirst gain sections).map fun c => biquadNumerator c zInv).prod =
      gain * (sections.map fun c => biquadNumerator c zInv).prod := by
  cases sections with
  | nil => exact absurd rfl hne
  | cons c sections =>
    rw [gainIntoFirst, List.map_cons, List.map_cons, List.prod_cons, List.prod_cons, ← mul_assoc]
    congr 1
    simp only [biquadNumerator, Complex.ofReal_mul]
    ring

end Gain

/-- The transfer function of a list of sections is that of zeros, poles and gain. -/
def RealisesZpk (sections : List (BiquadCoeffs ℝ)) (zpk : Zpk) : Prop :=
  ∀ zInv : ℂ,
    (sections.map fun c => biquadNumerator c zInv).prod =
        zpk.gain * (zpk.zeros.map fun z => 1 - z * zInv).prod ∧
      (sections.map fun c => biquadDenominator c zInv).prod =
        (zpk.poles.map fun p => 1 - p * zInv).prod

theorem pairIntoSections_of_conj {zpk : Zpk} (hne : zpk.poles ≠ [])
    (hconj : zpk.poles.Perm (zpk.poles.map conj)) (hclear : ∀ p ∈ zpk.poles, ¬ NearReal p)
    (hinside : ∀ p ∈ zpk.poles, ‖p‖ < 1) (hreal : ∀ z ∈ zpk.zeros, z.im = 0)
    (hcount : zpk.zeros.length = zpk.poles.length) :
    ∃ sections, pairIntoSections zpk = .ok sections ∧
      2 * sections.length = zpk.poles.length ∧
      (sections.map sectionPoleRadius).Pairwise (· ≤ ·) ∧ (∀ c ∈ sections, Stable c) ∧
      RealisesZpk sections zpk := by
  obtain ⟨reps, hpoles, hreps⟩ := splitConjugateReal_of_conj hconj hclear
  obtain ⟨reals, hzeros, hreals⟩ := splitConjugateReal_of_real hreal
  have hnonreal : ∀ v ∈ zpk.poles, v.im ≠ 0 :=
    fun v hv him => hclear v hv (nearReal_of_im_eq_zero him)
  -- the poles are the representatives and their conjugates
  have hbelow := filter_below_perm hconj hnonreal
  simp only [decide_not] at hbelow
  have hsplit : zpk.poles.Perm (reps ++ reps.map conj) :=
    (List.filter_append_perm (fun v : ℂ => decide (0 < v.im)) zpk.poles).symm.trans
      (hreps.symm.append (hbelow.trans (hreps.symm.map _)))
  have hlength : zpk.poles.length = 2 * reps.length := by
    rw [hsplit.length_eq, List.length_append, List.length_map]
    omega
  have hreallength : reals.length = 2 * reps.length := by
    rw [hreals.length_eq, List.length_map, hcount, hlength]
  have hmem : ∀ p ∈ reps, p ∈ zpk.poles := fun p hp => (List.mem_filter.mp (hreps.mem_iff.mp hp)).1
  have hnone : ∀ p ∈ reps, ∀ c ∈ ([] : List (BiquadCoeffs ℝ)), ‖p‖ ≤ sectionPoleRadius c :=
    fun _ _ _ hc => absurd hc List.not_mem_nil
  obtain ⟨hfill, hsorted, hfrom, hprod⟩ := fillSections_spec rfl
    (fun p hp => hinside p (hmem p hp)) hreallength List.Pairwise.nil hnone
  have hpaired : pairIntoSections zpk =
      .ok (gainIntoFirst zpk.gain (fillSections reps.length reps reals [])) := by
    simp only [pairIntoSections, hpoles, hzeros, bind, Except.bind, List.isEmpty_nil, hreallength]
    simp
  have hfilled : fillSections reps.length reps reals [] ≠ [] := by
    refine List.ne_nil_of_length_pos ?_
    have hpos := List.length_pos_iff.mpr hne
    rw [hfill, List.length_nil]
    omega
  refine ⟨_, hpaired, ?_, ?_, ?_, fun zInv => ⟨?_, ?_⟩⟩
  · rw [gainIntoFirst_length, hfill, List.length_nil, add_zero, hlength]
  · rw [gainIntoFirst_radius]
    exact hsorted
  · refine gainIntoFirst_stable fun c hc => ?_
    obtain hc | ⟨p, hp, z1, z2, rfl⟩ := hfrom c hc
    · exact absurd hc List.not_mem_nil
    · exact pairedSection_stable (hinside p (hmem p hp)) z1 z2
  · have hcast : zpk.zeros.map (fun z => 1 - z * zInv) =
        (zpk.zeros.map Complex.re).map fun z : ℝ => 1 - (z : ℂ) * zInv := by
      rw [List.map_map]
      refine List.map_congr_left fun z hz => ?_
      have hz' : ((z.re : ℝ) : ℂ) = z := Complex.ext rfl (hreal z hz).symm
      rw [Function.comp_apply, hz']
    rw [gainIntoFirst_numerator hfilled, (hprod zInv).1, List.map_nil, List.prod_nil, mul_one,
      hcast, (hreals.map _).prod_eq]
  · rw [gainIntoFirst_denominator, (hprod zInv).2, List.map_nil, List.prod_nil, mul_one,
      (hsplit.map _).prod_eq, List.map_append, List.prod_append, List.map_map, ← List.prod_map_mul]
    rfl

theorem pairIntoSections_of_nearReal {zpk : Zpk} {p : ℂ} (hp : p ∈ zpk.poles)
    (hnear : NearReal p) : ∃ what, pairIntoSections zpk = .error (.logicError what) := by
  rw [pairIntoSections]
  obtain ⟨poleSplit, hpoles⟩ | herror := splitConjugateReal_error zpk.poles
  · have hreals := reals_ne_nil_of_nearReal hpoles hp hnear
    rw [hpoles]
    obtain ⟨zeroSplit, hzeros⟩ | herror := splitConjugateReal_error zpk.zeros
    · rw [hzeros]
      refine ⟨_, if_pos (.inl ?_)⟩
      rw [List.isEmpty_iff]
      exact hreals
    · rw [herror]
      exact ⟨_, rfl⟩
  · rw [herror]
    exact ⟨_, rfl⟩

end Dsp

end RtaTool
