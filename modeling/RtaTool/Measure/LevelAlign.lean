import Mathlib.Algebra.BigOperators.Ring.List
import Mathlib.Algebra.Order.BigOperators.Group.List
import Mathlib.Algebra.Order.Field.Basic
import Mathlib.Tactic.FieldSimp
import Mathlib.Tactic.Linarith
import Mathlib.Tactic.Ring

/-!
# Level alignment

`LevelAlign.h`. A position's level over a band is the mean of its levels there, weighted by its own
coherence, and moves with its trim; the group's is the mean of all of them, weighted by what each
position's weights add up to. Every position with a weight is moved to the group's level. The
weights do not move, so the group's level stays: what it is a mean of is now all equal to it.

## Main definitions

* `LevelSnapshot`, `positionSums`, `alignTrims`
* `positionLevelDb`, `groupLevelDb` -- the means
* `Trusted` -- a position with a weight in the band

## Main results

* `positionSums_eq` -- how the sums of a position depend on its trim
* `groupLevelDb_aligned` -- the group's level stays
* `alignTrims_spec` -- **Headline.** One call, a second one, and one with all trims moved
-/

namespace RtaTool

namespace Measure

variable {K : Type*} [Field K] [LinearOrder K]

/-! ### `LevelAlign.h` -/

/-- `TransferSnapshot`, as far as `alignTrims` reads it. -/
structure LevelSnapshot (K : Type*) where
  binWidthHz : K
  magnitudeDb : List K
  coherence : Option (List K)

/-- One turn of the loop over the bins: the weighted sum of the levels, and that of the weights. -/
def addLevel (snap : LevelSnapshot K) (coherence : List K) (lowHz highHz trim : K) (sums : K × K)
    (k : ℕ) : K × K :=
  let hz := (k : K) * snap.binWidthHz
  if hz < lowHz ∨ highHz < hz then sums
  else
    let weight := coherence.getD k 0
    if ¬ 0 < weight then sums
    else
      let levelDb := snap.magnitudeDb.getD k 0 + trim
      (sums.1 + weight * levelDb, sums.2 + weight)

/-- The loop over the bins of a position: its `weightedSums` and `weightSums`. -/
def positionSums (lowHz highHz : K) (position : LevelSnapshot K × K) : K × K :=
  match position.1.coherence with
  | none => (0, 0)
  | some coherence =>
    if position.1.binWidthHz ≤ 0 then (0, 0)
    else
      (List.range (min coherence.length position.1.magnitudeDb.length)).foldl
        (addLevel position.1 coherence lowHz highHz position.2) (0, 0)

/-- `groupWeightedSum` and `groupWeightSum`. -/
def groupSums (lowHz highHz : K) (positions : List (LevelSnapshot K × K)) : K × K :=
  positions.foldl (fun group position =>
    (group.1 + (positionSums lowHz highHz position).1,
      group.2 + (positionSums lowHz highHz position).2)) (0, 0)

/-- The turn of the second loop for a position: its move, and the trim it is left with. -/
def alignPosition (lowHz highHz groupLevelDb : K) (position : LevelSnapshot K × K) :
    Option K × K :=
  let sums := positionSums lowHz highHz position
  if ¬ 0 < sums.2 then (none, position.2)
  else
    let positionLevelDb := sums.1 / sums.2
    let move := groupLevelDb - positionLevelDb
    (some move, position.2 + move)

/-- `alignTrims(positions, lowHz, highHz, trimsOut)`: the moves, and the trims it leaves. -/
def alignTrims (positions : List (LevelSnapshot K)) (lowHz highHz : K) (trimsOut : List K) :
    List (Option K) × List K :=
  if positions.length ≠ trimsOut.length then (List.replicate positions.length none, trimsOut)
  else
    let group := groupSums lowHz highHz (positions.zip trimsOut)
    if ¬ 0 < group.2 then (List.replicate positions.length none, trimsOut)
    else
      let groupLevelDb := group.1 / group.2
      let aligned := (positions.zip trimsOut).map (alignPosition lowHz highHz groupLevelDb)
      (aligned.map Prod.fst, aligned.map Prod.snd)

/-! ### Levels -/

variable (lowHz highHz : K)

/-- A position's level over the band. -/
def positionLevelDb (position : LevelSnapshot K × K) : K :=
  (positionSums lowHz highHz position).1 / (positionSums lowHz highHz position).2

/-- The group's level over the band. -/
def groupLevelDb (positions : List (LevelSnapshot K × K)) : K :=
  (groupSums lowHz highHz positions).1 / (groupSums lowHz highHz positions).2

/-- The sum of a position's weights over the band. -/
def trust (snap : LevelSnapshot K) : K := (positionSums lowHz highHz (snap, 0)).2

/-- A position has a weight in the band. -/
def Trusted (snap : LevelSnapshot K) : Prop := 0 < trust lowHz highHz snap

variable [IsStrictOrderedRing K]

theorem foldl_addLevel (snap : LevelSnapshot K) (coherence : List K) (trim : K) (bins : List ℕ)
    (sums sums' : K × K) (hweight : sums'.2 = sums.2) (hlevel : sums'.1 = sums.1 + sums.2 * trim)
    (hnonneg : 0 ≤ sums.2) (hzero : sums.2 = 0 → sums.1 = 0) :
    let out := bins.foldl (addLevel snap coherence lowHz highHz 0) sums
    let out' := bins.foldl (addLevel snap coherence lowHz highHz trim) sums'
    out'.2 = out.2 ∧ out'.1 = out.1 + out.2 * trim ∧ 0 ≤ out.2 ∧ (out.2 = 0 → out.1 = 0) := by
  induction bins generalizing sums sums' with
  | nil => exact ⟨hweight, hlevel, hnonneg, hzero⟩
  | cons k bins ih =>
    rw [List.foldl_cons, List.foldl_cons]
    by_cases hband : (k : K) * snap.binWidthHz < lowHz ∨ highHz < (k : K) * snap.binWidthHz
    · rw [addLevel, addLevel, if_pos hband, if_pos hband]
      exact ih _ _ hweight hlevel hnonneg hzero
    by_cases htrust : 0 < coherence.getD k 0
    · rw [addLevel, addLevel, if_neg hband, if_neg hband]
      dsimp only
      rw [if_neg (not_not.mpr htrust), if_neg (not_not.mpr htrust)]
      refine ih _ _ (by rw [hweight]) ?_ (by positivity) ?_
      · dsimp only
        rw [hlevel]
        ring
      · intro hsum
        dsimp only at hsum
        linarith
    · rw [addLevel, addLevel, if_neg hband, if_neg hband]
      dsimp only
      rw [if_pos htrust, if_pos htrust]
      exact ih _ _ hweight hlevel hnonneg hzero

/-- A position's level moves with its trim, and its weights do not. -/
theorem positionSums_eq (position : LevelSnapshot K × K) :
    positionSums lowHz highHz position =
      ((positionSums lowHz highHz (position.1, 0)).1 + trust lowHz highHz position.1 * position.2,
        trust lowHz highHz position.1) := by
  rw [trust, positionSums.eq_def, positionSums.eq_def]
  cases position.1.coherence with
  | none => simp
  | some coherence =>
    dsimp only
    split_ifs
    · simp
    · obtain ⟨hweight, hlevel, -⟩ := foldl_addLevel lowHz highHz position.1 coherence position.2
        (List.range (min coherence.length position.1.magnitudeDb.length)) (0, 0) (0, 0) rfl
        (by simp) le_rfl (fun _ => rfl)
      exact Prod.ext hlevel hweight

/-- The weights are none of them negative, and without any there is nothing to add up. -/
theorem trust_nonneg (snap : LevelSnapshot K) :
    0 ≤ trust lowHz highHz snap ∧
      (trust lowHz highHz snap = 0 → (positionSums lowHz highHz (snap, 0)).1 = 0) := by
  rw [trust, positionSums.eq_def]
  cases snap.coherence with
  | none => simp
  | some coherence =>
    dsimp only
    split_ifs
    · simp
    · exact (foldl_addLevel lowHz highHz snap coherence 0
        (List.range (min coherence.length snap.magnitudeDb.length)) (0, 0) (0, 0) rfl
        (by simp) le_rfl (fun _ => rfl)).2.2

omit [IsStrictOrderedRing K] in
theorem groupSums_eq (positions : List (LevelSnapshot K × K)) :
    groupSums lowHz highHz positions =
      ((positions.map fun position => (positionSums lowHz highHz position).1).sum,
        (positions.map fun position => (positionSums lowHz highHz position).2).sum) := by
  have hfold : ∀ (positions : List (LevelSnapshot K × K)) (group : K × K),
      positions.foldl (fun group position =>
        (group.1 + (positionSums lowHz highHz position).1,
          group.2 + (positionSums lowHz highHz position).2)) group =
      (group.1 + (positions.map fun position => (positionSums lowHz highHz position).1).sum,
        group.2 + (positions.map fun position => (positionSums lowHz highHz position).2).sum) := by
    intro positions
    induction positions with
    | nil => simp
    | cons position positions ih =>
      intro group
      rw [List.foldl_cons, ih]
      simp only [List.map_cons, List.sum_cons, add_assoc]
  rw [groupSums, hfold]
  simp

theorem positionSums_fst (position : LevelSnapshot K × K) :
    (positionSums lowHz highHz position).1 =
      trust lowHz highHz position.1 * positionLevelDb lowHz highHz position := by
  have hsums := positionSums_eq lowHz highHz position
  obtain ⟨hnonneg, hzero⟩ := trust_nonneg lowHz highHz position.1
  rw [positionLevelDb, hsums]
  dsimp only
  obtain htrust | htrust := hnonneg.eq_or_lt
  · rw [← htrust, hzero htrust.symm]
    simp
  · rw [mul_div_cancel₀ _ htrust.ne']

theorem positionLevelDb_add {position : LevelSnapshot K × K}
    (htrust : Trusted lowHz highHz position.1) (c : K) :
    positionLevelDb lowHz highHz (position.1, position.2 + c) =
      positionLevelDb lowHz highHz position + c := by
  have hne : trust lowHz highHz position.1 ≠ 0 := ne_of_gt htrust
  rw [positionLevelDb, positionLevelDb, positionSums_eq, positionSums_eq lowHz highHz position]
  field_simp
  ring

theorem groupLevelDb_of_all {positions : List (LevelSnapshot K × K)} {level : K}
    (hlevel : ∀ position ∈ positions, Trusted lowHz highHz position.1 →
      positionLevelDb lowHz highHz position = level)
    (hgroup : 0 < (groupSums lowHz highHz positions).2) :
    groupLevelDb lowHz highHz positions = level := by
  have hsums : (positions.map fun position => (positionSums lowHz highHz position).1) =
      positions.map fun position => (positionSums lowHz highHz position).2 * level := by
    refine List.map_congr_left fun position hposition => ?_
    rw [positionSums_fst, positionSums_eq lowHz highHz position]
    dsimp only
    obtain htrust | htrust := (trust_nonneg lowHz highHz position.1).1.eq_or_lt
    · rw [← htrust, zero_mul, zero_mul]
    · rw [hlevel position hposition htrust]
  rw [groupSums_eq] at hgroup
  rw [groupLevelDb, groupSums_eq, hsums, List.sum_map_mul_right]
  exact mul_div_cancel_left₀ _ hgroup.ne'

theorem groupSums_snd_pos_iff (positions : List (LevelSnapshot K × K)) :
    0 < (groupSums lowHz highHz positions).2 ↔
      ∃ position ∈ positions, Trusted lowHz highHz position.1 := by
  have hweights : ∀ w ∈ positions.map fun position => (positionSums lowHz highHz position).2,
      0 ≤ w := by
    intro w hw
    obtain ⟨position, -, rfl⟩ := List.mem_map.mp hw
    rw [positionSums_eq]
    exact (trust_nonneg lowHz highHz position.1).1
  rw [groupSums_eq]
  constructor
  · intro hpos
    by_contra hnone
    push Not at hnone
    have hzero : (positions.map fun position => (positionSums lowHz highHz position).2) =
        positions.map fun _ => (0 : K) := by
      refine List.map_congr_left fun position hposition => ?_
      rw [positionSums_eq]
      exact le_antisymm (not_lt.mp (hnone position hposition))
        (trust_nonneg lowHz highHz position.1).1
    rw [hzero] at hpos
    simp at hpos
  · rintro ⟨position, hposition, htrust⟩
    have hle := List.single_le_sum hweights _ (List.mem_map_of_mem hposition)
    rw [positionSums_eq] at hle
    exact lt_of_lt_of_le htrust hle

/-! ### One call -/

variable {lowHz highHz}

variable {position : LevelSnapshot K × K}

theorem alignPosition_of_trusted (htrust : Trusted lowHz highHz position.1) (level : K) :
    let move := level - positionLevelDb lowHz highHz position
    alignPosition lowHz highHz level position = (some move, position.2 + move) ∧
      positionLevelDb lowHz highHz (position.1, position.2 + move) = level := by
  intro move
  have hpos : 0 < (positionSums lowHz highHz position).2 := by
    rw [positionSums_eq]
    exact htrust
  refine ⟨?_, ?_⟩
  · rw [alignPosition, if_neg (not_not.mpr hpos)]
    rfl
  · rw [positionLevelDb_add lowHz highHz htrust, add_sub_cancel]

theorem alignPosition_of_not (htrust : ¬ Trusted lowHz highHz position.1) (level : K) :
    alignPosition lowHz highHz level position = (none, position.2) := by
  rw [alignPosition, if_pos]
  rw [positionSums_eq]
  exact htrust

variable {positions : List (LevelSnapshot K)} {trims : List K}

section

variable (hlength : positions.length = trims.length)

include hlength

/-- Whether or not any position has a weight, a call is one turn of the loop for each. -/
theorem alignTrims_eq :
    let level := groupLevelDb lowHz highHz (positions.zip trims)
    alignTrims positions lowHz highHz trims =
      ((positions.zip trims).map fun position => (alignPosition lowHz highHz level position).1,
        (positions.zip trims).map fun position =>
          (alignPosition lowHz highHz level position).2) := by
  intro level
  rw [alignTrims, if_neg (not_not.mpr hlength)]
  dsimp only
  by_cases hgroup : 0 < (groupSums lowHz highHz (positions.zip trims)).2
  · rw [if_neg (not_not.mpr hgroup), List.map_map, List.map_map]
    rfl
  · have hnone : ∀ position ∈ positions.zip trims,
        alignPosition lowHz highHz level position = (none, position.2) := by
      intro position hposition
      refine alignPosition_of_not (fun htrust => hgroup ?_) level
      exact (groupSums_snd_pos_iff lowHz highHz _).mpr ⟨position, hposition, htrust⟩
    have hmoves : ((positions.zip trims).map fun position =>
        (alignPosition lowHz highHz level position).1) = List.replicate positions.length none := by
      rw [List.map_congr_left fun position hposition =>
        congrArg Prod.fst (hnone position hposition), List.map_const', List.length_zip, hlength,
        min_self]
    have htrims : ((positions.zip trims).map fun position =>
        (alignPosition lowHz highHz level position).2) = trims := by
      rw [List.map_congr_left fun position hposition =>
        congrArg Prod.snd (hnone position hposition)]
      exact List.map_snd_zip hlength.ge
    rw [if_pos hgroup, hmoves, htrims]

theorem zip_alignTrims :
    positions.zip (alignTrims positions lowHz highHz trims).2 =
      (positions.zip trims).map fun position => (position.1, (alignPosition lowHz highHz
        (groupLevelDb lowHz highHz (positions.zip trims)) position).2) := by
  have hzip := @List.zip_map' _ _ _ Prod.fst (fun position => (alignPosition lowHz highHz
    (groupLevelDb lowHz highHz (positions.zip trims)) position).2) (positions.zip trims)
  rw [List.map_fst_zip hlength.le] at hzip
  rw [alignTrims_eq hlength]
  exact hzip

/-- The group's level stays. -/
theorem groupLevelDb_aligned (hsome : ∃ snap ∈ positions, Trusted lowHz highHz snap) :
    groupLevelDb lowHz highHz (positions.zip (alignTrims positions lowHz highHz trims).2) =
      groupLevelDb lowHz highHz (positions.zip trims) := by
  rw [zip_alignTrims hlength]
  refine groupLevelDb_of_all lowHz highHz ?_ ?_
  · intro position hposition htrust
    obtain ⟨before, -, rfl⟩ := List.mem_map.mp hposition
    have hbefore : Trusted lowHz highHz before.1 := htrust
    obtain ⟨hturn, hlevel⟩ := alignPosition_of_trusted hbefore
      (groupLevelDb lowHz highHz (positions.zip trims))
    rw [hturn]
    exact hlevel
  · obtain ⟨snap, hsnap, htrust⟩ := hsome
    rw [← List.map_fst_zip hlength.le] at hsnap
    obtain ⟨before, hbefore, rfl⟩ := List.mem_map.mp hsnap
    exact (groupSums_snd_pos_iff lowHz highHz _).mpr ⟨_, List.mem_map_of_mem hbefore, htrust⟩

end

omit [LinearOrder K] [IsStrictOrderedRing K] in
theorem zip_map_add (positions : List (LevelSnapshot K)) (trims : List K) (c : K) :
    positions.zip (trims.map (· + c)) =
      (positions.zip trims).map fun position => (position.1, position.2 + c) := by
  rw [List.zip_map_right]
  rfl

theorem groupLevelDb_add (hsome : ∃ position ∈ positions.zip trims,
    Trusted lowHz highHz position.1) (c : K) :
    groupLevelDb lowHz highHz (positions.zip (trims.map (· + c))) =
      groupLevelDb lowHz highHz (positions.zip trims) + c := by
  have hpos := (groupSums_snd_pos_iff lowHz highHz _).mpr hsome
  have hlevels : ((positions.zip trims).map fun position =>
      (positionSums lowHz highHz (position.1, position.2 + c)).1) =
      (positions.zip trims).map fun position => (positionSums lowHz highHz position).1 +
        (positionSums lowHz highHz position).2 * c := by
    refine List.map_congr_left fun position _ => ?_
    rw [positionSums_eq, positionSums_eq lowHz highHz position]
    ring
  have hweights : ((positions.zip trims).map fun position =>
      (positionSums lowHz highHz (position.1, position.2 + c)).2) =
      (positions.zip trims).map fun position => (positionSums lowHz highHz position).2 := by
    refine List.map_congr_left fun position _ => ?_
    rw [positionSums_eq, positionSums_eq lowHz highHz position]
  rw [groupSums_eq] at hpos
  rw [groupLevelDb, groupLevelDb, groupSums_eq, groupSums_eq, zip_map_add, List.map_map,
    List.map_map]
  change ((positions.zip trims).map fun position =>
      (positionSums lowHz highHz (position.1, position.2 + c)).1).sum /
    ((positions.zip trims).map fun position =>
      (positionSums lowHz highHz (position.1, position.2 + c)).2).sum = _
  rw [hlevels, hweights, List.sum_map_add, List.sum_map_mul_right, add_div,
    mul_div_cancel_left₀ _ hpos.ne']

theorem alignTrims_add (hlength : positions.length = trims.length) (c : K) :
    alignTrims positions lowHz highHz (trims.map (· + c)) =
      ((alignTrims positions lowHz highHz trims).1,
        (alignTrims positions lowHz highHz trims).2.map (· + c)) := by
  have hturn : ∀ position ∈ positions.zip trims,
      alignPosition lowHz highHz (groupLevelDb lowHz highHz (positions.zip (trims.map (· + c))))
        (position.1, position.2 + c) =
      ((alignPosition lowHz highHz (groupLevelDb lowHz highHz (positions.zip trims)) position).1,
        (alignPosition lowHz highHz (groupLevelDb lowHz highHz (positions.zip trims))
          position).2 + c) := by
    intro position hposition
    by_cases htrust : Trusted lowHz highHz position.1
    · have hshifted : Trusted lowHz highHz ((position.1, position.2 + c) : _ × K).1 := htrust
      rw [(alignPosition_of_trusted htrust _).1, (alignPosition_of_trusted hshifted _).1,
        positionLevelDb_add lowHz highHz htrust, groupLevelDb_add ⟨position, hposition, htrust⟩]
      refine Prod.ext (congrArg some ?_) ?_
      · ring
      · ring
    · have hshifted : ¬ Trusted lowHz highHz ((position.1, position.2 + c) : _ × K).1 := htrust
      rw [alignPosition_of_not htrust, alignPosition_of_not hshifted]
  rw [alignTrims_eq hlength, alignTrims_eq (by rw [List.length_map, hlength])]
  generalize groupLevelDb lowHz highHz (positions.zip (trims.map (· + c))) = level at hturn ⊢
  rw [zip_map_add, List.map_map, List.map_map, List.map_map]
  refine Prod.ext ?_ ?_
  · refine List.map_congr_left fun position hposition => ?_
    have hmove := congrArg Prod.fst (hturn position hposition)
    exact hmove
  · refine List.map_congr_left fun position hposition => ?_
    have htrim := congrArg Prod.snd (hturn position hposition)
    exact htrim

/-- A second call moves every position with a weight by nothing, and leaves the trims. -/
theorem alignTrims_again (hlength : positions.length = trims.length) :
    let once := (alignTrims positions lowHz highHz trims).2
    alignTrims positions lowHz highHz once =
      ((alignTrims positions lowHz highHz trims).1.map fun move => move.map fun _ => 0, once) := by
  intro once
  have honce : positions.length = once.length := by
    simp only [once, alignTrims_eq hlength, List.length_map, List.length_zip, ← hlength, min_self]
  have hturn : ∀ position ∈ positions.zip trims,
      let turn := alignPosition lowHz highHz
        (groupLevelDb lowHz highHz (positions.zip trims)) position
      alignPosition lowHz highHz (groupLevelDb lowHz highHz (positions.zip once))
        (position.1, turn.2) = (turn.1.map fun _ => 0, turn.2) := by
    intro position hposition turn
    by_cases htrust : Trusted lowHz highHz position.1
    · have hmoved : Trusted lowHz highHz ((position.1, turn.2) : _ × K).1 := htrust
      have hsnap : position.1 ∈ positions := by
        rw [← List.map_fst_zip hlength.le]
        exact List.mem_map_of_mem hposition
      obtain ⟨hmove, hlevel⟩ := alignPosition_of_trusted htrust
        (groupLevelDb lowHz highHz (positions.zip trims))
      have hstays : positionLevelDb lowHz highHz (position.1, turn.2) =
          groupLevelDb lowHz highHz (positions.zip once) := by
        rw [groupLevelDb_aligned hlength ⟨position.1, hsnap, htrust⟩, show turn = _ from hmove]
        exact hlevel
      rw [(alignPosition_of_trusted hmoved _).1, hstays, sub_self, add_zero]
      exact Prod.ext (by rw [show turn = _ from hmove]; rfl) rfl
    · have hmoved : ¬ Trusted lowHz highHz ((position.1, turn.2) : _ × K).1 := htrust
      rw [alignPosition_of_not hmoved]
      exact Prod.ext (by rw [show turn = _ from alignPosition_of_not htrust _]; rfl) rfl
  have hzip : positions.zip once = (positions.zip trims).map fun position =>
      (position.1, (alignPosition lowHz highHz (groupLevelDb lowHz highHz (positions.zip trims))
        position).2) := zip_alignTrims hlength
  rw [alignTrims_eq honce]
  generalize groupLevelDb lowHz highHz (positions.zip once) = level at hturn ⊢
  rw [hzip, List.map_map, List.map_map, alignTrims_eq hlength, List.map_map]
  refine Prod.ext ?_ ?_
  · refine List.map_congr_left fun position hposition => ?_
    have hmove := congrArg Prod.fst (hturn position hposition)
    exact hmove
  · change _ = once
    rw [show once = _ from congrArg Prod.snd (alignTrims_eq hlength)]
    refine List.map_congr_left fun position hposition => ?_
    have htrim := congrArg Prod.snd (hturn position hposition)
    exact htrim

/-- **Headline.** Lists of different lengths leave the trims. Otherwise a position without a weight
in the band is not moved; one with a weight is moved to the group's level, which stays; a second
call moves those by nothing; and with all trims moved by a constant, so are the ones that are
left. -/
theorem alignTrims_spec (positions : List (LevelSnapshot K)) (lowHz highHz : K) (trims : List K) :
    let out := alignTrims positions lowHz highHz trims
    let level := groupLevelDb lowHz highHz (positions.zip trims)
    (positions.length ≠ trims.length → out = (List.replicate positions.length none, trims)) ∧
    (positions.length = trims.length →
      out.1.length = positions.length ∧ out.2.length = trims.length ∧
      (∀ (i : ℕ) snap trim, positions[i]? = some snap → trims[i]? = some trim →
        (¬ Trusted lowHz highHz snap → out.1[i]? = some none ∧ out.2[i]? = some trim) ∧
        (Trusted lowHz highHz snap → ∃ move, out.1[i]? = some (some move) ∧
          out.2[i]? = some (trim + move) ∧
          positionLevelDb lowHz highHz (snap, trim + move) = level ∧
          (alignTrims positions lowHz highHz out.2).1[i]? = some (some 0))) ∧
      ((∃ snap ∈ positions, Trusted lowHz highHz snap) →
        groupLevelDb lowHz highHz (positions.zip out.2) = level) ∧
      (alignTrims positions lowHz highHz out.2).2 = out.2 ∧
      ∀ c, (alignTrims positions lowHz highHz (trims.map (· + c))).2 = out.2.map (· + c)) := by
  intro out level
  refine ⟨fun hne => if_pos hne, fun hlength => ?_⟩
  have hout : out = _ := alignTrims_eq hlength
  have hagain : alignTrims positions lowHz highHz out.2 =
      (out.1.map fun move => move.map fun _ => 0, out.2) := alignTrims_again hlength
  refine ⟨?_, ?_, ?_, groupLevelDb_aligned hlength, ?_, fun c => ?_⟩
  · rw [hout, List.length_map, List.length_zip, hlength, min_self]
  · rw [hout, List.length_map, List.length_zip, hlength, min_self]
  · intro i snap trim hsnap htrim
    have hpair : (positions.zip trims)[i]? = some (snap, trim) :=
      List.getElem?_zip_eq_some.mpr ⟨hsnap, htrim⟩
    have hmoves : out.1[i]? = some (alignPosition lowHz highHz level (snap, trim)).1 := by
      rw [hout, List.getElem?_map, hpair]
      rfl
    have htrims : out.2[i]? = some (alignPosition lowHz highHz level (snap, trim)).2 := by
      rw [hout, List.getElem?_map, hpair]
      rfl
    constructor
    · intro htrust
      have hpair : ¬ Trusted lowHz highHz ((snap, trim) : _ × K).1 := htrust
      rw [hmoves, htrims, alignPosition_of_not hpair]
      exact ⟨rfl, rfl⟩
    · intro htrust
      have hpair : Trusted lowHz highHz ((snap, trim) : _ × K).1 := htrust
      obtain ⟨hturn, hlevel⟩ := alignPosition_of_trusted hpair level
      rw [hturn] at hmoves htrims
      refine ⟨_, hmoves, htrims, hlevel, ?_⟩
      rw [hagain, List.getElem?_map, hmoves]
      rfl
  · rw [hagain]
  · rw [alignTrims_add hlength]

/-- Six decibels apart, with equal weights: each moves three, and the mean of the group stays. -/
theorem alignTrims_spec_two :
    let positions : List (LevelSnapshot ℚ) := [⟨1, [0, 0], some [1, 1]⟩, ⟨1, [6, 6], some [1, 1]⟩]
    let out := alignTrims positions 0 1 [0, 0]
    out.2 = [3, -3] ∧
      groupLevelDb 0 1 (positions.zip out.2) = groupLevelDb 0 1 (positions.zip [0, 0]) ∧
      (alignTrims positions 0 1 out.2).2 = out.2 := by
  intro positions out
  have htrust : Trusted 0 1 (⟨1, [0, 0], some [1, 1]⟩ : LevelSnapshot ℚ) := by
    rw [Trusted]
    decide +kernel
  obtain ⟨-, -, -, hgroup, hagain, -⟩ := (alignTrims_spec positions 0 1 [0, 0]).2 rfl
  exact ⟨by decide +kernel, hgroup ⟨_, List.mem_cons_self, htrust⟩, hagain⟩

end Measure

end RtaTool
