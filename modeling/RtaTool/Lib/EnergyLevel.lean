import Mathlib.Analysis.SpecialFunctions.Log.Base

/-!
# Levels of energies

The level of an energy is ten times its logarithm to base ten. On positive energies the level and
the energy of a level undo each other, and a product of energies is a sum of levels.

A mean of `count + extra` energies is to come out at a target, and `count` of them are known to add
up to `total`. `meanAllowance` is the energy that each of the others may then have.

## Main definitions

* `energyLevel`, `levelEnergy`
* `meanAllowance`

## Main results

* `energyLevel_levelEnergy`, `levelEnergy_energyLevel`, `levelEnergy_sub`
* `mean_eq_iff`, `lt_mean_iff`, `meanAllowance_pos_iff`
-/

namespace RtaTool

/-! ### Energy and level -/

/-- `10 log₁₀ e`. -/
noncomputable def energyLevel (e : ℝ) : ℝ := 10 * Real.logb 10 e

/-- `10 ^ (l / 10)`. -/
noncomputable def levelEnergy (l : ℝ) : ℝ := (10 : ℝ) ^ (l / 10)

theorem levelEnergy_pos (l : ℝ) : 0 < levelEnergy l :=
  Real.rpow_pos_of_pos (by norm_num) _

@[simp] theorem energyLevel_levelEnergy (l : ℝ) : energyLevel (levelEnergy l) = l := by
  rw [energyLevel, levelEnergy, Real.logb_rpow (by norm_num) (by norm_num)]
  field_simp

theorem levelEnergy_energyLevel {e : ℝ} (he : 0 < e) : levelEnergy (energyLevel e) = e := by
  rw [energyLevel, levelEnergy, mul_div_cancel_left₀ _ (by norm_num),
    Real.rpow_logb (by norm_num) (by norm_num) he]

theorem levelEnergy_lt_levelEnergy {a b : ℝ} : levelEnergy a < levelEnergy b ↔ a < b := by
  rw [levelEnergy, levelEnergy, Real.rpow_lt_rpow_left_iff (by norm_num),
    div_lt_div_iff_of_pos_right (by norm_num)]

theorem levelEnergy_add (a b : ℝ) : levelEnergy (a + b) = levelEnergy a * levelEnergy b := by
  rw [levelEnergy, levelEnergy, levelEnergy, add_div, Real.rpow_add (by norm_num)]

theorem levelEnergy_sub (a b : ℝ) : levelEnergy (a - b) = levelEnergy a / levelEnergy b := by
  rw [eq_div_iff (levelEnergy_pos b).ne', ← levelEnergy_add, sub_add_cancel]

/-- A level is above another exactly when its energy is. -/
theorem lt_energyLevel_iff {l e : ℝ} (he : 0 < e) : l < energyLevel e ↔ levelEnergy l < e := by
  rw [← levelEnergy_lt_levelEnergy, levelEnergy_energyLevel he]

theorem energyLevel_eq_iff {l e : ℝ} (he : 0 < e) : energyLevel e = l ↔ e = levelEnergy l := by
  constructor
  · intro h
    rw [← h, levelEnergy_energyLevel he]
  · intro h
    rw [h, energyLevel_levelEnergy]

theorem energyLevel_levelEnergy_mul (offset : ℝ) {e : ℝ} (he : 0 < e) :
    energyLevel (levelEnergy offset * e) = energyLevel e + offset := by
  rw [energyLevel_eq_iff (mul_pos (levelEnergy_pos offset) he), levelEnergy_add,
    levelEnergy_energyLevel he, mul_comm]

/-! ### What the rest of a mean may be -/

/-- The energy that each of `extra` further ones may have. -/
noncomputable def meanAllowance (count extra total target : ℝ) : ℝ :=
  ((count + extra) * target - total) / extra

section Mean

variable {count extra total target added : ℝ}

theorem extra_mul_meanAllowance (hextra : 0 < extra) :
    extra * meanAllowance count extra total target = (count + extra) * target - total :=
  mul_div_cancel₀ _ hextra.ne'

/-- The mean comes out at the target exactly when the others use up their allowance. -/
theorem mean_eq_iff (hcount : 0 ≤ count) (hextra : 0 < extra) :
    (total + added) / (count + extra) = target ↔
      added = extra * meanAllowance count extra total target := by
  have hall : 0 < count + extra := by linarith
  rw [extra_mul_meanAllowance hextra, div_eq_iff hall.ne']
  constructor
  · intro h
    linarith
  · intro h
    linarith

/-- It comes out above the target exactly when they exceed it. -/
theorem lt_mean_iff (hcount : 0 ≤ count) (hextra : 0 < extra) :
    target < (total + added) / (count + extra) ↔
      extra * meanAllowance count extra total target < added := by
  have hall : 0 < count + extra := by linarith
  rw [extra_mul_meanAllowance hextra, lt_div_iff₀ hall]
  constructor
  · intro h
    linarith
  · intro h
    linarith

/-- Nothing is allowed once what is known is as much as the whole mean may add up to. -/
theorem meanAllowance_pos_iff (hextra : 0 < extra) :
    0 < meanAllowance count extra total target ↔ total < (count + extra) * target := by
  rw [meanAllowance, div_pos_iff_of_pos_right hextra, sub_pos]

end Mean

end RtaTool
