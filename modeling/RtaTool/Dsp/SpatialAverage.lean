import RtaTool.Dsp.Refusals
import RtaTool.Dsp.TransferEstimator

/-!
# An average over positions

`SpatialAverage.cpp`. At a bin every position that has a coherence and is not muted contributes,
with its weight times its coherence. Each of the sums is over the contributing positions alone and
each term of it has the weight for a factor, so the order of the positions does not matter, nor what
the others hold, and a common factor of the weights cancels.

Weights are numbers, so that none is infinite and none is not a number.

## Main definitions

* `TransferSnapshot`, `SpatialAverageResult`, `SpatialMath`
* `BinSums`, `spatialAverageBins`, `spatialAverage`
* `Admissible` -- the positions and weights that the average is for

## Main results

* `binSums_eq` -- the sums of a bin, over the positions that contribute
* `spatialAverage_spec` -- **Headline.** What the average does not depend on, its bounds, and its
  absences
-/

namespace RtaTool

namespace Dsp

/-! ### Positions and results -/

/-- `SpatialMode`. -/
inductive SpatialMode
  | db
  | power
  deriving DecidableEq, Repr

/-- `SpatialBinState`. -/
structure SpatialBinState where
  absence : SpatialAbsence := .noContributor
  phasePresent : Bool := false
  contributors : UInt16 := 0
  deriving DecidableEq

/-- `SpatialAverageResult`. -/
@[ext]
structure SpatialAverageResult (K : Type*) where
  mode : SpatialMode
  sampleRate : K
  binWidthHz : K
  magnitudeDb : List K
  phaseRadians : List K
  phaseAgreement : List K
  weightedCoherence : List K
  bins : List SpatialBinState

/-- The functions of the standard library. -/
structure SpatialMath (K : Type*) [CommRing K] where
  sqrt : K → K
  log10 : K → K
  arg : Cplx K → K

/-- `TransferSnapshot::kMagnitudeFloorDb`. -/
def kMagnitudeFloorDb {K : Type*} [Field K] : K := -120

/-- `std::numeric_limits<double>::epsilon()`. -/
def doubleEpsilon {K : Type*} [Field K] : K := 1 / 2 ^ 52

variable {K : Type*} [Field K] [LinearOrder K] (math : SpatialMath K) (mode : SpatialMode)

/-! ### A bin -/

/-- The sums of a bin. -/
structure BinSums (K : Type*) [CommRing K] where
  sumW : K := 0
  sumU : K := 0
  sumWeightedGamma2 : K := 0
  sumMagnitudeTerm : K := 0
  sumZ : Cplx K := 0
  contributors : UInt16 := 0

/-- A turn of the loop over the positions. -/
def BinSums.add (k : ℕ) (sums : BinSums K) (member : TransferSnapshot K × K) : BinSums K :=
  match member.1.coherence with
  | none => sums
  | some coherence =>
    if ¬ 0 < member.2 then sums
    else
      let gamma2 := coherence.getD k 0
      let weight := member.2 * gamma2
      let sums :=
        { sums with
          contributors := sums.contributors + 1
          sumU := sums.sumU + member.2
          sumWeightedGamma2 := sums.sumWeightedGamma2 + weight }
      if weight = 0 then sums
      else
        let h := member.1.h.getD k 0
        let magnitude := cplxAbs math.sqrt h
        { sums with
          sumW := sums.sumW + weight
          sumMagnitudeTerm := sums.sumMagnitudeTerm +
            match mode with
            | .db => weight * 20 * math.log10 magnitude
            | .power => weight * magnitude * magnitude
          sumZ := sums.sumZ + weight • (magnitude⁻¹ • h) }

/-- The loop over the positions. -/
def binSums (k : ℕ) (members : List (TransferSnapshot K × K)) : BinSums K :=
  members.foldl (BinSums.add math mode k) {}

/-- What the result has at a bin. -/
structure SpatialBin (K : Type*) where
  magnitudeDb : K
  phaseRadians : K
  phaseAgreement : K
  weightedCoherence : K
  state : SpatialBinState

/-- What is made of the sums of a bin. -/
def spatialBin (sums : BinSums K) : SpatialBin K :=
  let weightedCoherence := if 0 < sums.sumU then sums.sumWeightedGamma2 / sums.sumU else 0
  if sums.sumW = 0 then
    { magnitudeDb := 0, phaseRadians := 0, phaseAgreement := 0, weightedCoherence
      state :=
        { contributors := sums.contributors
          absence := if sums.contributors = 0 then .noContributor else .noWeight } }
  else
    let combined := match mode with
      | .db => sums.sumMagnitudeTerm / sums.sumW
      | .power => 10 * math.log10 (sums.sumMagnitudeTerm / sums.sumW)
    let z := sums.sumW⁻¹ • sums.sumZ
    let r := cplxAbs math.sqrt z
    { magnitudeDb := max combined kMagnitudeFloorDb
      phaseRadians := math.arg z
      phaseAgreement := r
      weightedCoherence
      state :=
        { contributors := sums.contributors
          absence := .present
          phasePresent := sums.contributors.toNat * doubleEpsilon < r } }

/-! ### All of it -/

/-- `validateInputs(positions, u)`. -/
def validateInputs (positions : List (TransferSnapshot K)) (u : List K) : Except String PUnit :=
  match positions with
  | [] => .error "spatialAverage: positions must not be empty"
  | first :: _ =>
    if u.length ≠ positions.length then
      .error "spatialAverage: u.size() must equal positions.size()"
    else if u.any fun weight => weight < 0 then
      .error "spatialAverage: every u[i] must be finite and >= 0"
    else if positions.any fun position => position.binWidthHz != first.binWidthHz ||
        position.sampleRate != first.sampleRate || position.h.length != first.h.length then
      .error "spatialAverage: positions disagree on binWidthHz, sampleRate or length"
    else .ok ⟨⟩

/-- `spatialAverageBins(positions, u, mode)`. -/
def spatialAverageBins (positions : List (TransferSnapshot K)) (u : List K) :
    Except String (SpatialAverageResult K) := do
  validateInputs positions u
  match positions with
  | [] => .error ""
  | front :: _ =>
    let bins := (List.range front.h.length).map fun k =>
      spatialBin math mode (binSums math mode k (positions.zip u))
    return {
      mode
      sampleRate := front.sampleRate
      binWidthHz := front.binWidthHz
      magnitudeDb := bins.map (·.magnitudeDb)
      phaseRadians := bins.map (·.phaseRadians)
      phaseAgreement := bins.map (·.phaseAgreement)
      weightedCoherence := bins.map (·.weightedCoherence)
      bins := bins.map (·.state) }

/-- `spatialAverage(positions, u, mode)`. -/
def spatialAverage (positions : List (TransferSnapshot K)) (u : List K) :
    Except String (Option (SpatialAverageResult K)) := do
  let result ← spatialAverageBins math mode positions u
  let anyPresent := result.bins.any fun bin => bin.absence = .present
  return if !anyPresent then none else some result

/-! ### The positions that contribute -/

/-- A position has a coherence and is not muted. -/
def contributes (member : TransferSnapshot K × K) : Bool :=
  member.1.coherence.isSome && decide (0 < member.2)

/-- Its coherence at a bin. -/
def gamma2 (k : ℕ) (member : TransferSnapshot K × K) : K := (member.1.coherence.getD []).getD k 0

/-- Its weight at a bin. -/
def binWeight (k : ℕ) (member : TransferSnapshot K × K) : K := member.2 * gamma2 k member

/-- What its weight multiplies in the sum of the magnitudes. -/
def magnitudeTerm (k : ℕ) (member : TransferSnapshot K × K) : K :=
  let magnitude := cplxAbs math.sqrt (member.1.h.getD k 0)
  match mode with
  | .db => 20 * math.log10 magnitude
  | .power => magnitude * magnitude

/-- And in that of the phases. -/
def unitPhase (k : ℕ) (member : TransferSnapshot K × K) : Cplx K :=
  let h := member.1.h.getD k 0
  (cplxAbs math.sqrt h)⁻¹ • h

theorem BinSums.add_eq (k : ℕ) (sums : BinSums K) (member : TransferSnapshot K × K) :
    sums.add math mode k member =
      if contributes member then
        { sumW := sums.sumW + binWeight k member
          sumU := sums.sumU + member.2
          sumWeightedGamma2 := sums.sumWeightedGamma2 + binWeight k member
          sumMagnitudeTerm :=
            sums.sumMagnitudeTerm + binWeight k member * magnitudeTerm math mode k member
          sumZ := sums.sumZ + binWeight k member • unitPhase math k member
          contributors := sums.contributors + 1 }
      else sums := by
  obtain ⟨⟨rate, width, h, coherence⟩, u⟩ := member
  cases coherence with
  | none => rfl
  | some coherence =>
    simp only [BinSums.add, contributes, binWeight, gamma2, magnitudeTerm, unitPhase,
      Option.isSome_some, Bool.true_and, Option.getD_some, decide_eq_true_eq, ite_not]
    refine if_congr Iff.rfl ?_ rfl
    split_ifs with hweight
    · rw [hweight]
      simp
    · cases mode with
      | db => simp only [mul_assoc]
      | power => simp only [mul_assoc]

/-- **Headline.** The sums of a bin are sums over the positions that contribute. -/
theorem binSums_eq (k : ℕ) (members : List (TransferSnapshot K × K)) :
    let contributing := members.filter contributes
    binSums math mode k members =
      { sumW := (contributing.map (binWeight k)).sum
        sumU := (contributing.map Prod.snd).sum
        sumWeightedGamma2 := (contributing.map (binWeight k)).sum
        sumMagnitudeTerm := (contributing.map fun member =>
          binWeight k member * magnitudeTerm math mode k member).sum
        sumZ := (contributing.map fun member => binWeight k member • unitPhase math k member).sum
        contributors := UInt16.ofNat contributing.length } := by
  induction members using List.reverseRecOn with
  | nil => rfl
  | append_singleton members member ih =>
    rw [binSums, List.foldl_append, ← binSums, ih, List.foldl_cons, List.foldl_nil,
      BinSums.add_eq, List.filter_append]
    split_ifs with hmember
    · simp [hmember, UInt16.ofNat_add]
    · simp [hmember]

theorem binSums_perm (k : ℕ) {members members' : List (TransferSnapshot K × K)}
    (hperm : (members.filter contributes).Perm (members'.filter contributes)) :
    binSums math mode k members = binSums math mode k members' := by
  rw [binSums_eq, binSums_eq, (hperm.map _).sum_eq, (hperm.map Prod.snd).sum_eq, hperm.length_eq,
    (hperm.map fun member => binWeight k member * magnitudeTerm math mode k member).sum_eq,
    (hperm.map fun member => binWeight k member • unitPhase math k member).sum_eq]

/-! ### A common factor -/

/-- A weight with a factor. -/
def scaleWeight (c : K) (member : TransferSnapshot K × K) : TransferSnapshot K × K :=
  (member.1, c * member.2)

section Scale

variable [IsStrictOrderedRing K] {c : K} (hc : 0 < c)
include hc

theorem filter_scaleWeight (members : List (TransferSnapshot K × K)) :
    (members.map (scaleWeight c)).filter contributes =
      (members.filter contributes).map (scaleWeight c) := by
  have hsame : contributes ∘ scaleWeight c = contributes := by
    funext member
    simp [contributes, scaleWeight, hc]
  rw [List.filter_map, hsame]

theorem binSums_scaleWeight (k : ℕ) (members : List (TransferSnapshot K × K)) :
    let sums := binSums math mode k members
    binSums math mode k (members.map (scaleWeight c)) =
      { sumW := c * sums.sumW
        sumU := c * sums.sumU
        sumWeightedGamma2 := c * sums.sumWeightedGamma2
        sumMagnitudeTerm := c * sums.sumMagnitudeTerm
        sumZ := c • sums.sumZ
        contributors := sums.contributors } := by
  have hweight : ∀ member : TransferSnapshot K × K,
      binWeight k (scaleWeight c member) = c * binWeight k member := fun member => mul_assoc ..
  have hterm : ∀ member : TransferSnapshot K × K,
      magnitudeTerm math mode k (scaleWeight c member) = magnitudeTerm math mode k member :=
    fun _ => rfl
  have hunit : ∀ member : TransferSnapshot K × K,
      unitPhase math k (scaleWeight c member) = unitPhase math k member := fun _ => rfl
  have hsnd : ∀ member : TransferSnapshot K × K, (scaleWeight c member).2 = c * member.2 :=
    fun _ => rfl
  rw [binSums_eq, binSums_eq]
  dsimp only
  rw [filter_scaleWeight hc, List.length_map]
  simp only [List.map_map, Function.comp_def, hweight, hterm, hunit, hsnd, mul_assoc,
    List.sum_map_mul_left, mul_smul, List.smul_sum]

theorem spatialBin_scale (sums : BinSums K) :
    spatialBin math mode
      { sumW := c * sums.sumW
        sumU := c * sums.sumU
        sumWeightedGamma2 := c * sums.sumWeightedGamma2
        sumMagnitudeTerm := c * sums.sumMagnitudeTerm
        sumZ := c • sums.sumZ
        contributors := sums.contributors } = spatialBin math mode sums := by
  have hz : (c * sums.sumW)⁻¹ • c • sums.sumZ = sums.sumW⁻¹ • sums.sumZ := by
    rw [smul_smul, mul_inv_rev, mul_assoc, inv_mul_cancel₀ hc.ne', mul_one]
  simp only [spatialBin, mul_pos_iff_of_pos_left hc, mul_eq_zero, hc.ne', false_or,
    mul_div_mul_left _ _ hc.ne', hz]

end Scale

/-! ### Positions of one shape -/

/-- What the positions of an average agree on. -/
structure SpatialShape (K : Type*) where
  sampleRate : K
  binWidthHz : K
  bins : ℕ

/-- Positions of one shape and weights that are not negative. A coherence is between zero and one,
and where it is positive the transfer function is not zero. -/
structure Admissible (shape : SpatialShape K) (members : List (TransferSnapshot K × K)) : Prop where
  nonempty : members ≠ []
  few : members.length < 65536
  weight : ∀ member ∈ members, 0 ≤ member.2
  sampleRate : ∀ member ∈ members, member.1.sampleRate = shape.sampleRate
  binWidthHz : ∀ member ∈ members, member.1.binWidthHz = shape.binWidthHz
  bins : ∀ member ∈ members, member.1.h.length = shape.bins
  coherence : ∀ member ∈ members, ∀ coherence, member.1.coherence = some coherence →
    coherence.length = shape.bins ∧ ∀ k < shape.bins,
      coherence.getD k 0 ∈ Set.Icc 0 1 ∧ (0 < coherence.getD k 0 → member.1.h.getD k 0 ≠ 0)

/-- A result, from what it has at each bin. -/
def resultOf (shape : SpatialShape K) (bin : ℕ → SpatialBin K) : SpatialAverageResult K :=
  let bins := (List.range shape.bins).map bin
  { mode
    sampleRate := shape.sampleRate
    binWidthHz := shape.binWidthHz
    magnitudeDb := bins.map (·.magnitudeDb)
    phaseRadians := bins.map (·.phaseRadians)
    phaseAgreement := bins.map (·.phaseAgreement)
    weightedCoherence := bins.map (·.weightedCoherence)
    bins := bins.map (·.state) }

namespace Admissible

variable {shape : SpatialShape K} {members : List (TransferSnapshot K × K)}
  (h : Admissible shape members)
include h

theorem perm {members' : List (TransferSnapshot K × K)} (hperm : members.Perm members') :
    Admissible shape members' where
  nonempty := fun hnil => h.nonempty (by rwa [hnil, List.perm_nil] at hperm)
  few := hperm.length_eq ▸ h.few
  weight member hmem := h.weight member (hperm.mem_iff.mpr hmem)
  sampleRate member hmem := h.sampleRate member (hperm.mem_iff.mpr hmem)
  binWidthHz member hmem := h.binWidthHz member (hperm.mem_iff.mpr hmem)
  bins member hmem := h.bins member (hperm.mem_iff.mpr hmem)
  coherence member hmem := h.coherence member (hperm.mem_iff.mpr hmem)

theorem scale [IsStrictOrderedRing K] {c : K} (hc : 0 < c) :
    Admissible shape (members.map (scaleWeight c)) where
  nonempty := fun hnil => h.nonempty (List.map_eq_nil_iff.mp hnil)
  few := (List.length_map ..).trans_lt h.few
  weight := by
    simp only [List.forall_mem_map, scaleWeight]
    exact fun member hmem => mul_nonneg hc.le (h.weight member hmem)
  sampleRate := by
    simp only [List.forall_mem_map, scaleWeight]
    exact h.sampleRate
  binWidthHz := by
    simp only [List.forall_mem_map, scaleWeight]
    exact h.binWidthHz
  bins := by
    simp only [List.forall_mem_map, scaleWeight]
    exact h.bins
  coherence := by
    simp only [List.forall_mem_map, scaleWeight]
    exact h.coherence

theorem validateInputs_eq :
    validateInputs (members.map Prod.fst) (members.map Prod.snd) = .ok ⟨⟩ := by
  obtain ⟨first, rest, rfl⟩ := List.exists_cons_of_ne_nil h.nonempty
  have hweight : ¬ ((first :: rest).map Prod.snd).any (fun weight => weight < 0) = true := by
    rw [List.any_map, List.any_eq_true]
    rintro ⟨member, hmem, hneg⟩
    exact absurd (of_decide_eq_true hneg) (h.weight member hmem).not_gt
  have hshape : ¬ ((first :: rest).map Prod.fst).any (fun position =>
      position.binWidthHz != first.1.binWidthHz || position.sampleRate != first.1.sampleRate ||
        position.h.length != first.1.h.length) = true := by
    rw [List.any_map, List.any_eq_true]
    rintro ⟨member, hmem, hdiffers⟩
    simp [h.binWidthHz member hmem, h.sampleRate member hmem, h.bins member hmem,
      h.binWidthHz first List.mem_cons_self, h.sampleRate first List.mem_cons_self,
      h.bins first List.mem_cons_self] at hdiffers
  rw [validateInputs.eq_def, List.map_cons]
  dsimp only
  rw [← List.map_cons, List.length_map, List.length_map, if_neg (not_not.mpr rfl), if_neg hweight,
    if_neg hshape]

theorem spatialAverageBins_eq :
    spatialAverageBins math mode (members.map Prod.fst) (members.map Prod.snd) =
      .ok (resultOf mode shape fun k => spatialBin math mode (binSums math mode k members)) := by
  have hzip : (members.map Prod.fst).zip (members.map Prod.snd) = members := by
    rw [← List.unzip_fst, ← List.unzip_snd, List.zip_unzip]
  rw [spatialAverageBins.eq_def, h.validateInputs_eq, hzip]
  obtain ⟨first, rest, rfl⟩ := List.exists_cons_of_ne_nil h.nonempty
  rw [List.map_cons]
  simp only [bind, Except.bind, h.bins first List.mem_cons_self,
    h.sampleRate first List.mem_cons_self, h.binWidthHz first List.mem_cons_self]
  rfl

omit h in
theorem spatialAverage_eq (h : Admissible shape members) :
    let bin := fun k => spatialBin math mode (binSums math mode k members)
    spatialAverage math mode (members.map Prod.fst) (members.map Prod.snd) =
      .ok (if ∃ k < shape.bins, (bin k).state.absence = .present then some (resultOf mode shape bin)
        else none) := by
  intro bin
  have hany : ((resultOf mode shape bin).bins.any fun bin => bin.absence = .present) = true ↔
      ∃ k < shape.bins, (bin k).state.absence = .present := by
    simp [resultOf]
  rw [spatialAverage, h.spatialAverageBins_eq]
  change Except.ok
    (if (!(resultOf mode shape bin).bins.any fun bin => bin.absence = .present) = true
      then none else some (resultOf mode shape bin)) = _
  congr 1
  by_cases hpresent : ∃ k < shape.bins, (bin k).state.absence = .present
  · rw [if_pos hpresent, hany.mpr hpresent]
    rfl
  · have hnone := Bool.eq_false_iff.mpr (mt hany.mp hpresent)
    rw [if_neg hpresent, hnone]
    rfl

/-! ### Absences -/

variable [IsStrictOrderedRing K] {k : ℕ} (hk : k < shape.bins)
include hk

omit [IsStrictOrderedRing K] in
theorem gamma2_mem {member : TransferSnapshot K × K} (hmem : member ∈ members)
    (hcontributes : contributes member = true) : gamma2 k member ∈ Set.Icc 0 1 := by
  rw [contributes, Bool.and_eq_true] at hcontributes
  obtain ⟨coherence, hcoherence⟩ := Option.isSome_iff_exists.mp hcontributes.1
  rw [gamma2, hcoherence, Option.getD_some]
  exact ((h.coherence member hmem coherence hcoherence).2 k hk).1

theorem binWeight_nonneg : ∀ member ∈ members.filter contributes, 0 ≤ binWeight k member := by
  intro member hmem
  obtain ⟨hmem, hcontributes⟩ := List.mem_filter.mp hmem
  exact mul_nonneg (h.weight member hmem) (h.gamma2_mem hk hmem hcontributes).1

theorem sumW_eq_zero_iff : (binSums math mode k members).sumW = 0 ↔
    ∀ member ∈ members, contributes member = true → gamma2 k member = 0 := by
  rw [binSums_eq]
  constructor
  · intro hsum member hmem hcontributes
    have hfilter := List.mem_filter.mpr ⟨hmem, hcontributes⟩
    have hzero : binWeight k member = 0 :=
      List.all_zero_of_le_zero_le_of_sum_eq_zero
        (List.forall_mem_map.mpr (h.binWeight_nonneg hk)) hsum (List.mem_map_of_mem hfilter)
    rw [contributes, Bool.and_eq_true, decide_eq_true_iff] at hcontributes
    exact (mul_eq_zero.mp hzero).resolve_left hcontributes.2.ne'
  · intro hzero
    refine List.sum_eq_zero (List.forall_mem_map.mpr fun member hmem => ?_)
    obtain ⟨hmem, hcontributes⟩ := List.mem_filter.mp hmem
    rw [binWeight, hzero member hmem hcontributes, mul_zero]

omit [IsStrictOrderedRing K] hk in
theorem contributors_toNat : (binSums math mode k members).contributors.toNat =
    (members.filter contributes).length := by
  rw [binSums_eq]
  exact Nat.mod_eq_of_lt ((List.length_filter_le _ _).trans_lt h.few)

omit [IsStrictOrderedRing K] hk in
theorem contributors_eq_zero_iff : (binSums math mode k members).contributors = 0 ↔
    ∀ member ∈ members, contributes member = false := by
  rw [← UInt16.toNat_inj, h.contributors_toNat, UInt16.toNat_zero, List.length_eq_zero_iff,
    List.filter_eq_nil_iff]
  exact forall₂_congr fun member _ => Iff.of_eq (Bool.not_eq_true _)

/-- **Headline.** What a bin says of its absence. -/
theorem absence_spec :
    let absence := (spatialBin math mode (binSums math mode k members)).state.absence
    (absence = .noContributor ↔ ∀ member ∈ members, contributes member = false) ∧
      (absence = .noWeight ↔ (∃ member ∈ members, contributes member = true) ∧
        ∀ member ∈ members, contributes member = true → gamma2 k member = 0) ∧
      (absence = .present ↔
        ∃ member ∈ members, contributes member = true ∧ 0 < gamma2 k member) := by
  have hpositive : (∃ member ∈ members, contributes member = true ∧ 0 < gamma2 k member) ↔
      ¬ ∀ member ∈ members, contributes member = true → gamma2 k member = 0 := by
    push Not
    refine exists_congr fun member => and_congr_right fun hmem => and_congr_right fun hmember => ?_
    exact (h.gamma2_mem hk hmem hmember).1.lt_iff_ne'
  have hsome : (∃ member ∈ members, contributes member = true) ↔
      ¬ ∀ member ∈ members, contributes member = false := by
    push Not
    simp
  rw [hpositive, hsome, ← h.sumW_eq_zero_iff math mode hk,
    ← h.contributors_eq_zero_iff math mode (k := k), spatialBin.eq_def]
  dsimp only
  by_cases hsum : (binSums math mode k members).sumW = 0
  · by_cases hnone : (binSums math mode k members).contributors = 0
    · simp [hsum, hnone]
    · simp [hsum, hnone]
  · have hcontributors : (binSums math mode k members).contributors ≠ 0 := by
      intro hzero
      refine hsum ((h.sumW_eq_zero_iff math mode hk).mpr fun member hmem hcontributes => ?_)
      rw [(h.contributors_eq_zero_iff math mode).mp hzero member hmem] at hcontributes
      exact absurd hcontributes Bool.false_ne_true
    simp [hsum, hcontributors]

/-! ### Bounds -/

theorem weightedCoherence_mem :
    (spatialBin math mode (binSums math mode k members)).weightedCoherence ∈ Set.Icc 0 1 := by
  have hnumerator : 0 ≤ ((members.filter contributes).map (binWeight k)).sum :=
    List.sum_nonneg (List.forall_mem_map.mpr (h.binWeight_nonneg hk))
  have hle : ((members.filter contributes).map (binWeight k)).sum ≤
      ((members.filter contributes).map Prod.snd).sum := by
    refine List.sum_le_sum fun member hmem => ?_
    obtain ⟨hmem, hcontributes⟩ := List.mem_filter.mp hmem
    exact mul_le_of_le_one_right (h.weight member hmem) (h.gamma2_mem hk hmem hcontributes).2
  have hread : (spatialBin math mode (binSums math mode k members)).weightedCoherence =
      if 0 < (binSums math mode k members).sumU
        then (binSums math mode k members).sumWeightedGamma2 / (binSums math mode k members).sumU
        else 0 := by
    rw [spatialBin.eq_def]
    dsimp only
    by_cases hsum : (binSums math mode k members).sumW = 0
    · rw [if_pos hsum]
    · rw [if_neg hsum]
  rw [hread, binSums_eq]
  dsimp only
  split_ifs with hpos
  · exact ⟨div_nonneg hnumerator hpos.le, (div_le_one hpos).mpr hle⟩
  · exact ⟨le_rfl, zero_le_one⟩

end Admissible

/-! ### The real functions -/

/-- The real ones. -/
noncomputable def realSpatial : SpatialMath ℝ where
  sqrt := Real.sqrt
  log10 x := Real.log x / Real.log 10
  arg := phaseRadians

theorem norm_unitPhase_le (k : ℕ) (member : TransferSnapshot ℝ × ℝ) :
    ‖toComplex (unitPhase realSpatial k member)‖ ≤ 1 := by
  change ‖toComplex ((cplxAbs Real.sqrt (member.1.h.getD k 0))⁻¹ • member.1.h.getD k 0)‖ ≤ 1
  rw [toComplex_smul, cplxAbs_eq_norm, norm_mul, Complex.norm_real, norm_inv, norm_norm]
  exact inv_mul_le_one

theorem norm_weighted_sum_le {α : Type*} {w : α → ℝ} {z : α → Cplx ℝ} {l : List α}
    (hw : ∀ a ∈ l, 0 ≤ w a) (hz : ∀ a ∈ l, ‖toComplex (z a)‖ ≤ 1) :
    ‖toComplex (l.map fun a => w a • z a).sum‖ ≤ (l.map w).sum := by
  induction l with
  | nil => simp
  | cons a l ih =>
    rw [List.map_cons, List.sum_cons, List.map_cons, List.sum_cons, map_add, toComplex_smul]
    refine (norm_add_le _ _).trans (add_le_add ?_ (ih (fun b hb => hw b (List.mem_cons_of_mem a hb))
      fun b hb => hz b (List.mem_cons_of_mem a hb)))
    rw [norm_mul, Complex.norm_real, Real.norm_of_nonneg (hw a List.mem_cons_self)]
    exact mul_le_of_le_one_right (hw a List.mem_cons_self) (hz a List.mem_cons_self)

variable {shape : SpatialShape ℝ} {members : List (TransferSnapshot ℝ × ℝ)}

theorem Admissible.phaseAgreement_mem (h : Admissible shape members) {k : ℕ} (hk : k < shape.bins) :
    (spatialBin realSpatial mode (binSums realSpatial mode k members)).phaseAgreement ∈
      Set.Icc 0 1 := by
  rw [spatialBin.eq_def]
  dsimp only
  by_cases hsum : (binSums realSpatial mode k members).sumW = 0
  · rw [if_pos hsum]
    exact ⟨le_rfl, zero_le_one⟩
  · rw [if_neg hsum]
    refine ⟨Real.sqrt_nonneg _, ?_⟩
    have hbound := norm_weighted_sum_le (h.binWeight_nonneg hk)
      fun member _ => norm_unitPhase_le k member
    have hnonneg : 0 ≤ ((members.filter contributes).map (binWeight k)).sum :=
      List.sum_nonneg (List.forall_mem_map.mpr (h.binWeight_nonneg hk))
    rw [binSums_eq] at hsum ⊢
    change cplxAbs Real.sqrt _ ≤ 1
    rw [cplxAbs_eq_norm, toComplex_smul, norm_mul, Complex.norm_real, norm_inv,
      Real.norm_of_nonneg hnonneg]
    exact inv_mul_le_one_of_le₀ hbound hnonneg

/-! ### Independence, bounds and absences -/

/-- `spatialAverage`, of positions that come with their weights. -/
noncomputable def spatialAverageOf (members : List (TransferSnapshot ℝ × ℝ)) :
    Except String (Option (SpatialAverageResult ℝ)) :=
  spatialAverage realSpatial mode (members.map Prod.fst) (members.map Prod.snd)

theorem spatialAverageOf_congr {members' : List (TransferSnapshot ℝ × ℝ)}
    (h : Admissible shape members) (h' : Admissible shape members')
    (hperm : (members'.filter contributes).Perm (members.filter contributes)) :
    spatialAverageOf mode members' = spatialAverageOf mode members := by
  have hbins : (fun k => spatialBin realSpatial mode (binSums realSpatial mode k members')) =
      fun k => spatialBin realSpatial mode (binSums realSpatial mode k members) := by
    funext k
    rw [binSums_perm _ _ _ hperm]
  rw [spatialAverageOf, spatialAverageOf, h'.spatialAverage_eq, h.spatialAverage_eq, hbins]

/-- **Headline.** The average does not depend on the order of the positions, on a common factor of
the weights, or on positions that are muted or have no coherence. Its coherence and the agreement of
its phases are between zero and one; each bin says why it is absent; and there is no result exactly
where no bin is present. -/
theorem spatialAverage_spec (shape : SpatialShape ℝ) (members : List (TransferSnapshot ℝ × ℝ))
    (mode : SpatialMode) (h : Admissible shape members) :
    (∀ members', members.Perm members' →
        spatialAverageOf mode members' = spatialAverageOf mode members) ∧
      (∀ c, 0 < c →
        spatialAverageOf mode (members.map (scaleWeight c)) = spatialAverageOf mode members) ∧
      (∀ members', Admissible shape members' →
        members'.filter contributes = members.filter contributes →
        spatialAverageOf mode members' = spatialAverageOf mode members) ∧
      ∃ bin : ℕ → SpatialBin ℝ,
        spatialAverageBins realSpatial mode (members.map Prod.fst) (members.map Prod.snd) =
          .ok (resultOf mode shape bin) ∧
        (∀ k < shape.bins,
          (bin k).weightedCoherence ∈ Set.Icc 0 1 ∧ (bin k).phaseAgreement ∈ Set.Icc 0 1 ∧
          ((bin k).state.absence = .noContributor ↔
            ∀ member ∈ members, contributes member = false) ∧
          ((bin k).state.absence = .noWeight ↔
            (∃ member ∈ members, contributes member = true) ∧
              ∀ member ∈ members, contributes member = true → gamma2 k member = 0) ∧
          ((bin k).state.absence = .present ↔
            ∃ member ∈ members, contributes member = true ∧ 0 < gamma2 k member)) ∧
        spatialAverageOf mode members = .ok
          (if ∃ k < shape.bins, (bin k).state.absence = .present
            then some (resultOf mode shape bin) else none) := by
  refine ⟨fun members' hperm => ?_, fun c hc => ?_, fun members' h' hfilter => ?_, _,
    h.spatialAverageBins_eq realSpatial mode, fun k hk => ?_, h.spatialAverage_eq realSpatial mode⟩
  · exact spatialAverageOf_congr mode h (h.perm hperm) (hperm.symm.filter _)
  · have hbins : (fun k => spatialBin realSpatial mode
        (binSums realSpatial mode k (members.map (scaleWeight c)))) =
        fun k => spatialBin realSpatial mode (binSums realSpatial mode k members) := by
      funext k
      rw [binSums_scaleWeight _ _ hc, spatialBin_scale _ _ hc]
    rw [spatialAverageOf, spatialAverageOf, (h.scale hc).spatialAverage_eq, h.spatialAverage_eq,
      hbins]
  · exact spatialAverageOf_congr mode h h' (.of_eq hfilter)
  · exact ⟨h.weightedCoherence_mem realSpatial mode hk, h.phaseAgreement_mem mode hk,
      h.absence_spec realSpatial mode hk⟩

/-- A position that is heard and one that is muted. -/
theorem spatialAverage_spec_muted :
    let heard : TransferSnapshot ℝ × ℝ := (⟨48000, 1, [1], some [1 / 2]⟩, 2)
    let muted : TransferSnapshot ℝ × ℝ := (⟨48000, 1, [0], none⟩, 1)
    spatialAverageOf .db [muted, heard] = spatialAverageOf .db [heard] ∧
      ∃ result, spatialAverageOf .db [heard] = .ok (some result) := by
  intro heard muted
  have hheard : ∀ k < 1, ([1 / 2] : List ℝ).getD k 0 ∈ Set.Icc 0 1 ∧
      (0 < ([1 / 2] : List ℝ).getD k 0 → ([1] : List (Cplx ℝ)).getD k 0 ≠ 0) := by
    intro k hk
    obtain rfl := Nat.lt_one_iff.mp hk
    simp only [List.getD_cons_zero]
    norm_num
  have h : Admissible ⟨48000, 1, 1⟩ [heard] :=
    { nonempty := List.cons_ne_nil _ _
      few := by simp
      weight := by simp [heard]
      sampleRate := by simp [heard]
      binWidthHz := by simp [heard]
      bins := by simp [heard]
      coherence := by
        simp only [List.mem_singleton, forall_eq, heard, Option.some.injEq]
        rintro _ rfl
        exact ⟨rfl, hheard⟩ }
  have h' : Admissible ⟨48000, 1, 1⟩ [muted, heard] :=
    { nonempty := List.cons_ne_nil _ _
      few := by simp
      weight := by simp [heard, muted]
      sampleRate := by simp [heard, muted]
      binWidthHz := by simp [heard, muted]
      bins := by simp [heard, muted]
      coherence := by
        simp only [List.mem_cons, List.not_mem_nil, or_false, forall_eq_or_imp, forall_eq, heard,
          muted, Option.some.injEq]
        refine ⟨by simp, ?_⟩
        rintro _ rfl
        exact ⟨rfl, hheard⟩ }
  have hcontributes : contributes heard = true := by simp [contributes, heard]
  obtain ⟨-, -, hmuted, bin, -, hbin, haverage⟩ := spatialAverage_spec _ [heard] .db h
  obtain ⟨-, -, -, -, hpresent⟩ := hbin 0 one_pos
  have hgamma2 : 0 < gamma2 0 heard := by simp [gamma2, heard]
  have hbin := hpresent.mpr ⟨heard, List.mem_singleton_self _, hcontributes, hgamma2⟩
  refine ⟨hmuted _ h' (by simp [contributes, muted]), resultOf .db ⟨48000, 1, 1⟩ bin, ?_⟩
  rw [haverage, if_pos ⟨0, one_pos, hbin⟩]

end Dsp

end RtaTool
