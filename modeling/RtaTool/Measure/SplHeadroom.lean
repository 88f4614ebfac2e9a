import RtaTool.Lib.EnergyLevel
import RtaTool.Lib.Numerals
import RtaTool.Measure.SplAlarm

/-!
# The headroom of an alarm, in exact arithmetic

With each block an alarm reports a headroom: the level at which the blocks still to come may be run
before its window reaches the limit. While the window is filling these are the blocks that complete
it; once it is full it is the one block that pushes the oldest out. What headroom there is comes
from inverting the energy average of `combineBlocks`, over the blocks that stay.

Here the headroom half of `SplAlarm::update` and what it calls are read over an arbitrary ordered
field, with the logarithm and the power a parameter, and settled over the reals with the real ones.
`update_headroomDb` says that over the rationals this is the headroom `SplAlarm.update` reports.

## Main definitions

* `combineBlocks`, `headroomDb`, `AlarmInputs.headroom` -- over an ordered field
* `complianceWindow`, `carried`, `missing` -- the window, what of it stays, and how much is to come
* `Uniform` -- the counted blocks have one length, and energy

## Main results

* `headroom_eq` -- the headroom is the level of what the energy average allows the missing blocks
* `headroom_inverts` -- blocks at the headroom bring the window to the limit, and louder ones over
  it; there is none exactly when the counted energy uses up the budget
-/

namespace RtaTool

namespace Headroom

/-! ### The code, over an ordered field -/

/-- `std::log10` and `std::pow(10.0, x)`. -/
structure LevelFunctions (K : Type) where
  log10 : K → K
  pow10 : K → K

/-- The part of `WindowResult` the headroom reads. -/
structure WindowReading (K : Type) where
  leqDb : Option K
  seconds : K
  excludedBlocks : ℕ

/-- What the headroom half of `SplAlarm::update` reads of the alarm's spec and of its arguments,
besides the blocks. -/
structure AlarmInputs (K : Type) where
  windowBlocks : ℕ
  limitDb : K
  sampleRate : K
  blockSeconds : K
  referenceOffsetDb : K

section Code

variable {K F : Type}

/-- `(b.flags & kExcludingFlags) != 0u`. -/
def excludesFromWindow (b : Block K F) : Bool := b.flags &&& calibrationInvalidFlag != 0

/-- The blocks `combineBlocks` counts. -/
def counted (blocks : List (Block K F)) : List (Block K F) :=
  blocks.filter fun b => !excludesFromWindow b

/-- The last `windowBlocks` blocks, or all there are. -/
def complianceWindow (windowBlocks : ℕ) (blocks : List (Block K F)) : List (Block K F) :=
  blocks.drop (blocks.length - min windowBlocks blocks.length)

/-- What of a compliance window stays when the next block comes: all of it while it is filling, all
but its oldest block once it is full. -/
def carried (windowBlocks : ℕ) (blocks : List (Block K F)) : List (Block K F) :=
  if blocks.length < windowBlocks then blocks
  else blocks.drop (blocks.length + 1 - windowBlocks)

/-- How many blocks are to come: those that complete a filling window, or one more. -/
def missing (windowBlocks : ℕ) (blocks : List (Block K F)) : ℕ :=
  if blocks.length < windowBlocks then windowBlocks - blocks.length else 1

variable [Field K] [LinearOrder K] (fns : LevelFunctions K)

/-- `combineBlocks(blocks, sampleRate, referenceOffsetDb)`. -/
def combineBlocks (blocks : List (Block K F)) (sampleRate referenceOffsetDb : K) :
    WindowReading K :=
  let sumSquares := ((counted blocks).map (·.sumSquares)).sum
  let samples : ℕ := ((counted blocks).map (·.blockSamples)).sum
  { leqDb :=
      if 0 < samples ∧ 0 < sumSquares then
        some (10 * fns.log10 (sumSquares / samples) + referenceOffsetDb)
      else if 0 < samples then some ((kLevelFloorDb : K) + referenceOffsetDb)
      else none
    seconds := if 0 < sampleRate then samples / sampleRate else 0
    excludedBlocks := (blocks.filter excludesFromWindow).length }

/-- `headroomDb(windowSeconds, elapsedSeconds, elapsedLeqDb, limitDb)`. -/
def headroomDb (windowSeconds elapsedSeconds elapsedLeqDb limitDb : K) : Option K :=
  if ¬ 0 < windowSeconds then none
  else if ¬ 0 ≤ elapsedSeconds then none
  else
    let remaining := windowSeconds - elapsedSeconds
    if ¬ 0 < remaining then none
    else
      let budget := windowSeconds * fns.pow10 (limitDb / 10)
      let spent := elapsedSeconds * fns.pow10 (elapsedLeqDb / 10)
      let bracket := (budget - spent) / remaining
      if ¬ 0 < bracket then none else some (10 * fns.log10 bracket)

/-- The headroom half of `SplAlarm::update(blocks, ...)`. -/
def AlarmInputs.headroom (a : AlarmInputs K) (blocks : List (Block K F)) : Option K :=
  let take := min a.windowBlocks blocks.length
  let tail := blocks.drop (blocks.length - take)
  let windowed := combineBlocks fns tail a.sampleRate a.referenceOffsetDb
  let windowFull := decide (take = a.windowBlocks)
  if !windowFull then
    windowed.leqDb.bind fun leqDb =>
      let windowSeconds := a.windowBlocks * a.blockSeconds
      let excludedSecondsSoFar := windowed.excludedBlocks * a.blockSeconds
      headroomDb fns (windowSeconds - excludedSecondsSoFar) windowed.seconds leqDb a.limitDb
  else if 0 < a.windowBlocks then
    let recent := (tail.drop 1).take (a.windowBlocks - 1)
    let recentResult := combineBlocks fns recent a.sampleRate a.referenceOffsetDb
    headroomDb fns (recentResult.seconds + a.blockSeconds) recentResult.seconds
      (recentResult.leqDb.getD 0) a.limitDb
  else none

end Code

/-- What an alarm's headroom reads of it, when it is updated. -/
def inputsOf (ctx : AlarmContext) (alarm : SplAlarm) : AlarmInputs ℚ where
  windowBlocks := alarm.spec.windowBlocks
  limitDb := alarm.spec.limitDb
  sampleRate := ctx.sampleRate
  blockSeconds := ctx.blockSeconds
  referenceOffsetDb := ctx.referenceOffsetDb

/-- Over the rationals, what is read off here is what the alarm reports. -/
theorem update_headroomDb (db : Decibels) (ctx : AlarmContext) (alarm : SplAlarm)
    (blocks : List Block) :
    (alarm.update db ctx blocks).1.headroomDb =
      (inputsOf ctx alarm).headroom ⟨db.log10, db.pow10⟩ blocks := by
  have hcombine : ∀ (l : List Block) (sampleRate referenceOffsetDb : ℚ),
      combineBlocks ⟨db.log10, db.pow10⟩ l sampleRate referenceOffsetDb =
        ⟨(RtaTool.combineBlocks db l sampleRate referenceOffsetDb).leqDb,
          (RtaTool.combineBlocks db l sampleRate referenceOffsetDb).seconds,
          (RtaTool.combineBlocks db l sampleRate referenceOffsetDb).excludedBlocks⟩ := by
    intro l sampleRate referenceOffsetDb
    have hsamples : ∀ members : List Block, (members.map fun b => (b.blockSamples : ℚ)).sum =
        ((members.map (·.blockSamples)).sum : ℕ) := by
      intro members
      rw [Nat.cast_list_sum, List.map_map]
      rfl
    simp only [combineBlocks, RtaTool.combineBlocks, Rat.cast_id, hsamples, Nat.cast_pos]
    rfl
  simp only [AlarmInputs.headroom, hcombine]
  rfl

/-! ### The real reading -/

/-- `std::log10` and `std::pow(10.0, x)` in exact real arithmetic. -/
noncomputable def realFunctions : LevelFunctions ℝ where
  log10 := Real.logb 10
  pow10 x := (10 : ℝ) ^ x

section Real

variable {F : Type}

/-- The counted blocks have `n` samples each, and energy. -/
def Uniform (n : ℕ) (blocks : List (Block ℝ F)) : Prop :=
  ∀ b ∈ blocks, excludesFromWindow b = false → b.blockSamples = n ∧ 0 < b.sumSquares

/-- The energy the window counts. -/
def countedEnergy (blocks : List (Block ℝ F)) : ℝ := ((counted blocks).map (·.sumSquares)).sum

theorem mem_counted {b : Block ℝ F} {blocks : List (Block ℝ F)} :
    b ∈ counted blocks ↔ b ∈ blocks ∧ excludesFromWindow b = false := by
  rw [counted, List.mem_filter, Bool.not_eq_true']

theorem counted_append (l₁ l₂ : List (Block ℝ F)) :
    counted (l₁ ++ l₂) = counted l₁ ++ counted l₂ :=
  List.filter_append ..

theorem length_counted_add (blocks : List (Block ℝ F)) :
    (counted blocks).length + (blocks.filter excludesFromWindow).length = blocks.length := by
  rw [counted, add_comm]
  exact List.length_eq_length_filter_add excludesFromWindow |>.symm

namespace Uniform

variable {n : ℕ} {blocks : List (Block ℝ F)}

section

variable (h : Uniform n blocks)

include h

variable {l : List (Block ℝ F)}

theorem of_subset (hl : l ⊆ blocks) :
    Uniform n l :=
  fun b hb => h b (hl hb)

theorem append (hl : Uniform n l) :
    Uniform n (blocks ++ l) := by
  intro b hb
  rcases List.mem_append.mp hb with hb | hb
  · exact h b hb
  · exact hl b hb

theorem samples_eq :
    ((counted blocks).map (·.blockSamples)).sum = (counted blocks).length * n := by
  have hconst : (counted blocks).map (·.blockSamples) = (counted blocks).map fun _ => n := by
    apply List.map_congr_left
    intro b hb
    exact (h b (mem_counted.mp hb).1 (mem_counted.mp hb).2).1
  rw [hconst, List.map_const', List.sum_replicate, smul_eq_mul]

theorem countedEnergy_pos (hne : counted blocks ≠ []) :
    0 < countedEnergy blocks := by
  apply List.sum_pos
  · intro e he
    obtain ⟨b, hb, rfl⟩ := List.mem_map.mp he
    exact (h b (mem_counted.mp hb).1 (mem_counted.mp hb).2).2
  · rw [Ne, List.map_eq_nil_iff]
    exact hne

/-- The level `combineBlocks` reports: that of the mean energy of the counted samples. -/
theorem leqDb_eq (hn : 0 < n) (hne : counted blocks ≠ []) (sampleRate offset : ℝ) :
    (combineBlocks realFunctions blocks sampleRate offset).leqDb =
      some (energyLevel (countedEnergy blocks / ((counted blocks).length * n)) + offset) := by
  have hsamples : 0 < (counted blocks).length * n :=
    Nat.mul_pos (List.length_pos_of_ne_nil hne) hn
  simp only [combineBlocks, h.samples_eq]
  rw [if_pos ⟨hsamples, h.countedEnergy_pos hne⟩, Nat.cast_mul]
  rfl

theorem seconds_eq {a : AlarmInputs ℝ} (hrate : 0 < a.sampleRate)
    (hn : a.blockSeconds * a.sampleRate = n) (offset : ℝ) :
    (combineBlocks realFunctions blocks a.sampleRate offset).seconds =
      (counted blocks).length * a.blockSeconds := by
  simp only [combineBlocks, h.samples_eq]
  rw [if_pos hrate, Nat.cast_mul, ← hn, div_eq_iff hrate.ne', mul_assoc]

end

end Uniform

/-- What the energy average of the window allows each sample of `extra` further blocks. -/
noncomputable def AlarmInputs.allowance (a : AlarmInputs ℝ) (n : ℕ) (kept : List (Block ℝ F))
    (extra : ℕ) : ℝ :=
  meanAllowance ((counted kept).length * n) (extra * n) (countedEnergy kept)
    (levelEnergy (a.limitDb - a.referenceOffsetDb))

variable {kept : List (Block ℝ F)} {a : AlarmInputs ℝ} {n : ℕ} {leqDb : ℝ}

/-- The energy the window has spent, as `headroomDb` reckons it: seconds times the energy of the
reported level. -/
theorem spent_eq (h : Uniform n kept) (hn : 0 < n) (a : AlarmInputs ℝ) (hleq : counted kept ≠ [] →
      (combineBlocks realFunctions kept a.sampleRate a.referenceOffsetDb).leqDb = some leqDb) :
    (counted kept).length * a.blockSeconds * levelEnergy leqDb =
      a.blockSeconds / n * levelEnergy a.referenceOffsetDb * countedEnergy kept := by
  by_cases hne : counted kept = []
  · have hzero : countedEnergy kept = 0 := by
      rw [countedEnergy, hne, List.map_nil, List.sum_nil]
    rw [hzero, hne, List.length_nil, Nat.cast_zero, zero_mul, zero_mul, mul_zero]
  · have hn' : (0 : ℝ) < n := Nat.cast_pos.mpr hn
    have hc : (0 : ℝ) < (counted kept).length := Nat.cast_pos.mpr (List.length_pos_of_ne_nil hne)
    have hlevel := hleq hne
    rw [h.leqDb_eq hn hne, Option.some_inj] at hlevel
    have hmean : 0 < countedEnergy kept / ((counted kept).length * n) :=
      div_pos (h.countedEnergy_pos hne) (mul_pos hc hn')
    rw [← hlevel, levelEnergy_add, levelEnergy_energyLevel hmean]
    field_simp

theorem headroomDb_eq (h : Uniform n kept) (hn : 0 < n) (hblock : 0 < a.blockSeconds) {extra : ℕ}
    (hextra : 0 < extra)
    (hleq : counted kept ≠ [] →
      (combineBlocks realFunctions kept a.sampleRate a.referenceOffsetDb).leqDb = some leqDb) :
    headroomDb realFunctions (((counted kept).length + extra) * a.blockSeconds)
        ((counted kept).length * a.blockSeconds) leqDb a.limitDb =
      if 0 < a.allowance n kept extra then
        some (energyLevel (a.allowance n kept extra) + a.referenceOffsetDb)
      else none := by
  have hn' : (0 : ℝ) < n := Nat.cast_pos.mpr hn
  have hextra' : (0 : ℝ) < extra := Nat.cast_pos.mpr hextra
  have hoffset := levelEnergy_pos a.referenceOffsetDb
  have hcount : (0 : ℝ) ≤ (counted kept).length := Nat.cast_nonneg _
  have hremaining : (((counted kept).length + extra) * a.blockSeconds -
      (counted kept).length * a.blockSeconds) = extra * a.blockSeconds := by
    ring
  have hbracket : (((counted kept).length + extra) * a.blockSeconds * levelEnergy a.limitDb -
      (counted kept).length * a.blockSeconds * levelEnergy leqDb) /
        (extra * a.blockSeconds) =
      levelEnergy a.referenceOffsetDb * a.allowance n kept extra := by
    rw [spent_eq h hn a hleq, AlarmInputs.allowance, meanAllowance, levelEnergy_sub]
    field_simp
  rw [headroomDb, if_neg (not_not_intro (by positivity)), if_neg (not_not_intro (by positivity))]
  dsimp only
  rw [hremaining, if_neg (not_not_intro (by positivity))]
  have hpow : ∀ x, realFunctions.pow10 (x / 10) = levelEnergy x := fun _ => rfl
  have hlog : ∀ x, 10 * realFunctions.log10 x = energyLevel x := fun _ => rfl
  rw [hpow, hpow, hbracket, hlog]
  by_cases hpos : 0 < a.allowance n kept extra
  · rw [if_neg (not_not_intro (mul_pos hoffset hpos)), if_pos hpos,
      energyLevel_levelEnergy_mul _ hpos]
  · have hnot : ¬ 0 < levelEnergy a.referenceOffsetDb * a.allowance n kept extra := by
      rw [mul_pos_iff_of_pos_left hoffset]
      exact hpos
    rw [if_pos hnot, if_neg hpos]

/-! ### The window that is to come -/

theorem missing_pos (windowBlocks : ℕ) (blocks : List (Block ℝ F)) :
    0 < missing windowBlocks blocks := by
  rw [missing]
  split_ifs with h
  · exact Nat.sub_pos_of_lt h
  · exact Nat.one_pos

theorem carried_subset (windowBlocks : ℕ) (blocks : List (Block ℝ F)) :
    carried windowBlocks blocks ⊆ blocks := by
  rw [carried]
  split_ifs
  · exact List.Subset.refl _
  · exact List.drop_subset _ _

theorem complianceWindow_append {windowBlocks : ℕ} (hwindow : 1 ≤ windowBlocks)
    {blocks appended : List (Block ℝ F)}
    (happended : appended.length = missing windowBlocks blocks) :
    complianceWindow windowBlocks (blocks ++ appended) =
      carried windowBlocks blocks ++ appended := by
  rw [missing] at happended
  rw [complianceWindow, carried, List.length_append]
  split_ifs at happended ⊢ with h
  · have hall : blocks.length + appended.length - min windowBlocks
        (blocks.length + appended.length) = 0 := by
      omega
    rw [hall, List.drop_zero]
  · have hmin : min windowBlocks (blocks.length + appended.length) = windowBlocks := by
      omega
    rw [hmin, happended, List.drop_append_of_le_length (by omega)]

/-- The headroom reported is the level of what the energy average allows the missing blocks. -/
theorem headroom_eq {blocks : List (Block ℝ F)}
    (hwindow : 1 ≤ a.windowBlocks) (hrate : 0 < a.sampleRate) (hn : 0 < n)
    (hsamples : a.blockSeconds * a.sampleRate = n) (huniform : Uniform n blocks)
    (hcounted : blocks.length < a.windowBlocks → counted blocks ≠ []) :
    a.headroom realFunctions blocks =
      if 0 < a.allowance n (carried a.windowBlocks blocks) (missing a.windowBlocks blocks) then
        some (energyLevel (a.allowance n (carried a.windowBlocks blocks)
          (missing a.windowBlocks blocks)) + a.referenceOffsetDb)
      else none := by
  have hblock : 0 < a.blockSeconds := by
    have hpos : 0 < a.blockSeconds * a.sampleRate := by
      rw [hsamples]
      exact Nat.cast_pos.mpr hn
    exact (mul_pos_iff_of_pos_right hrate).mp hpos
  have hkept := huniform.of_subset (carried_subset a.windowBlocks blocks)
  have hmissing := missing_pos a.windowBlocks blocks
  rw [AlarmInputs.headroom]
  dsimp only
  by_cases hfilling : blocks.length < a.windowBlocks
  · -- all the blocks stay, and the window's seconds leave out those excluded so far
    have hcarried : carried a.windowBlocks blocks = blocks := if_pos hfilling
    have htail : blocks.drop (blocks.length - min a.windowBlocks blocks.length) = blocks := by
      rw [Nat.min_eq_right hfilling.le, Nat.sub_self, List.drop_zero]
    have hnotFull : decide (min a.windowBlocks blocks.length = a.windowBlocks) = false :=
      decide_eq_false (by omega)
    have hleq := huniform.leqDb_eq hn (hcounted hfilling) a.sampleRate a.referenceOffsetDb
    have hseconds : (a.windowBlocks : ℝ) * a.blockSeconds -
        ((blocks.filter excludesFromWindow).length : ℝ) * a.blockSeconds =
          ((counted blocks).length + (missing a.windowBlocks blocks : ℕ)) * a.blockSeconds := by
      have hcount : a.windowBlocks = (counted blocks).length + missing a.windowBlocks blocks +
          (blocks.filter excludesFromWindow).length := by
        have hlength := length_counted_add blocks
        rw [missing, if_pos hfilling]
        omega
      have hcast : (a.windowBlocks : ℝ) = (counted blocks).length +
          (missing a.windowBlocks blocks : ℕ) + (blocks.filter excludesFromWindow).length := by
        exact_mod_cast hcount
      rw [hcast]
      ring
    rw [hcarried] at hkept ⊢
    rw [hnotFull, htail, hleq, if_pos (by rfl), Option.bind_some]
    rw [huniform.seconds_eq hrate hsamples, ← headroomDb_eq hkept hn hblock hmissing fun _ => hleq,
      ← hseconds]
    rfl
  · -- the oldest block goes, and the one to come takes its place
    have hmin : min a.windowBlocks blocks.length = a.windowBlocks := by
      omega
    have hone : missing a.windowBlocks blocks = 1 := if_neg hfilling
    have hrecent : ((blocks.drop (blocks.length - a.windowBlocks)).drop 1).take
        (a.windowBlocks - 1) = carried a.windowBlocks blocks := by
      rw [carried, if_neg hfilling, List.drop_drop, List.take_of_length_le]
      · congr 1
        omega
      · rw [List.length_drop]
        omega
    rw [hmin, decide_eq_true rfl, hrecent, if_neg (by decide),
      if_pos (Nat.pos_of_ne_zero (by omega)),
      hkept.seconds_eq hrate hsamples, ← headroomDb_eq hkept hn hblock hmissing, hone, Nat.cast_one]
    · congr 1
      ring
    · intro hne
      rw [hkept.leqDb_eq hn hne, Option.getD_some]

/-! ### Blocks at a level -/

/-- A block the window counts, like those it has. -/
structure Counts (n : ℕ) (b : Block ℝ F) : Prop where
  notExcluded : excludesFromWindow b = false
  blockSamples : b.blockSamples = n
  sumSquares_pos : 0 < b.sumSquares

/-- The level of a block: the `Leq` of it alone. -/
noncomputable def AlarmInputs.blockLevel (a : AlarmInputs ℝ) (b : Block ℝ F) : Option ℝ :=
  (combineBlocks realFunctions [b] a.sampleRate a.referenceOffsetDb).leqDb

/-- The energy of `count` blocks of `n` samples that are at the limit. -/
noncomputable def AlarmInputs.budget (a : AlarmInputs ℝ) (n count : ℕ) : ℝ :=
  count * n * levelEnergy (a.limitDb - a.referenceOffsetDb)

variable {n : ℕ}

variable {blocks : List (Block ℝ F)}

theorem counted_of_counts (h : ∀ b ∈ blocks, Counts n b) :
    counted blocks = blocks := by
  rw [counted, List.filter_eq_self]
  intro b hb
  rw [(h b hb).notExcluded, Bool.not_false]

theorem uniform_of_counts (h : ∀ b ∈ blocks, Counts n b) :
    Uniform n blocks :=
  fun b hb _ => ⟨(h b hb).blockSamples, (h b hb).sumSquares_pos⟩

theorem Counts.blockLevel_eq {b : Block ℝ F} (h : Counts n b) (hn : 0 < n) (a : AlarmInputs ℝ) :
    a.blockLevel b = some (energyLevel (b.sumSquares / n) + a.referenceOffsetDb) := by
  have hall : ∀ c ∈ [b], Counts n c := by
    intro c hc
    rw [List.mem_singleton.mp hc]
    exact h
  have hcounted := counted_of_counts hall
  rw [AlarmInputs.blockLevel, (uniform_of_counts hall).leqDb_eq hn (by simp [hcounted]),
    countedEnergy, hcounted, List.map_singleton, List.sum_singleton, List.length_singleton,
    Nat.cast_one, one_mul]

theorem leqDb_complianceWindow {a : AlarmInputs ℝ} {blocks appended : List (Block ℝ F)}
    (hwindow : 1 ≤ a.windowBlocks) (hn : 0 < n) (huniform : Uniform n blocks)
    (hlength : appended.length = missing a.windowBlocks blocks)
    (happended : ∀ b ∈ appended, Counts n b) :
    ∃ mean, 0 < mean ∧
      (combineBlocks realFunctions (complianceWindow a.windowBlocks (blocks ++ appended))
        a.sampleRate a.referenceOffsetDb).leqDb = some (energyLevel mean + a.referenceOffsetDb) ∧
      mean = (countedEnergy (carried a.windowBlocks blocks) + (appended.map (·.sumSquares)).sum) /
        ((counted (carried a.windowBlocks blocks)).length * n +
          missing a.windowBlocks blocks * n) := by
  have hmissing := missing_pos a.windowBlocks blocks
  have hall : Uniform n (carried a.windowBlocks blocks ++ appended) :=
    (huniform.of_subset (carried_subset a.windowBlocks blocks)).append (uniform_of_counts happended)
  have hcounted : counted (carried a.windowBlocks blocks ++ appended) =
      counted (carried a.windowBlocks blocks) ++ appended := by
    rw [counted_append, counted_of_counts happended]
  have hne : counted (carried a.windowBlocks blocks ++ appended) ≠ [] := by
    intro hnil
    rw [hcounted, List.append_eq_nil_iff] at hnil
    rw [hnil.2, List.length_nil] at hlength
    omega
  have henergy : countedEnergy (carried a.windowBlocks blocks ++ appended) =
      countedEnergy (carried a.windowBlocks blocks) + (appended.map (·.sumSquares)).sum := by
    rw [countedEnergy, hcounted, List.map_append, List.sum_append, countedEnergy]
  have hsamples : ((counted (carried a.windowBlocks blocks ++ appended)).length : ℝ) * n =
      (counted (carried a.windowBlocks blocks)).length * n + missing a.windowBlocks blocks * n := by
    rw [hcounted, List.length_append, hlength, Nat.cast_add, add_mul]
  have hpos : 0 < ((counted (carried a.windowBlocks blocks ++ appended)).length : ℝ) * n :=
    mul_pos (Nat.cast_pos.mpr (List.length_pos_of_ne_nil hne)) (Nat.cast_pos.mpr hn)
  have hleq := hall.leqDb_eq hn hne a.sampleRate a.referenceOffsetDb
  have hmean := div_pos (hall.countedEnergy_pos hne) hpos
  rw [hsamples, henergy] at hleq hmean
  rw [complianceWindow_append hwindow hlength]
  exact ⟨_, hmean, hleq, rfl⟩

/-- **Headline.** What `SplAlarm` reports inverts the energy average of `combineBlocks`. Where it
reports a headroom, counted blocks at exactly that level, as many as complete a filling window or
one more for a full one, bring the `Leq` of that compliance window to the limit, and blocks above
it bring it over the limit. It reports none exactly when the energy the window has counted already
uses up its whole budget. -/
theorem headroom_inverts (a : AlarmInputs ℝ) (blocks : List (Block ℝ F)) (n : ℕ)
    (hwindow : 1 ≤ a.windowBlocks) (hrate : 0 < a.sampleRate) (hn : 0 < n)
    (hsamples : a.blockSeconds * a.sampleRate = n) (huniform : Uniform n blocks)
    (hcounted : blocks.length < a.windowBlocks → counted blocks ≠ []) :
    (∀ h, a.headroom realFunctions blocks = some h → ∀ appended : List (Block ℝ F),
      appended.length = missing a.windowBlocks blocks → (∀ b ∈ appended, Counts n b) →
      ((∀ b ∈ appended, a.blockLevel b = some h) →
        (combineBlocks realFunctions (complianceWindow a.windowBlocks (blocks ++ appended))
          a.sampleRate a.referenceOffsetDb).leqDb = some a.limitDb) ∧
      ((∀ b ∈ appended, ∃ level, a.blockLevel b = some level ∧ h < level) →
        ∃ leqDb, (combineBlocks realFunctions
          (complianceWindow a.windowBlocks (blocks ++ appended))
          a.sampleRate a.referenceOffsetDb).leqDb = some leqDb ∧ a.limitDb < leqDb)) ∧
    (a.headroom realFunctions blocks = none ↔
      a.budget n ((counted (carried a.windowBlocks blocks)).length +
        missing a.windowBlocks blocks) ≤ countedEnergy (carried a.windowBlocks blocks)) := by
  have hn' : (0 : ℝ) < n := Nat.cast_pos.mpr hn
  have hextra : (0 : ℝ) < (missing a.windowBlocks blocks : ℕ) * n :=
    mul_pos (Nat.cast_pos.mpr (missing_pos a.windowBlocks blocks)) hn'
  have hcount : (0 : ℝ) ≤ (counted (carried a.windowBlocks blocks)).length * n := by
    positivity
  rw [headroom_eq hwindow hrate hn hsamples huniform hcounted]
  constructor
  · intro h hreported appended hlength happended
    obtain ⟨hpos, hsome⟩ := Option.ite_none_right_eq_some.mp hreported
    have hlevel := Option.some.inj hsome
    obtain ⟨mean, hmean, hleq, heq⟩ :=
      leqDb_complianceWindow hwindow hn huniform hlength happended
    have hne : appended ≠ [] := by
      intro hnil
      rw [hnil, List.length_nil] at hlength
      exact absurd hlength (missing_pos a.windowBlocks blocks).ne
    -- what the appended blocks hold against the allowance, block by block
    have hallowed : (appended.map fun _ : Block ℝ F =>
        (n : ℝ) * a.allowance n (carried a.windowBlocks blocks) (missing a.windowBlocks blocks)).sum
        = missing a.windowBlocks blocks * n *
          a.allowance n (carried a.windowBlocks blocks) (missing a.windowBlocks blocks) := by
      rw [List.map_const', List.sum_replicate, hlength, nsmul_eq_mul, mul_assoc]
    rw [hleq]
    constructor
    · intro hat
      have hsum : (appended.map (·.sumSquares)).sum = missing a.windowBlocks blocks * n *
          a.allowance n (carried a.windowBlocks blocks) (missing a.windowBlocks blocks) := by
        rw [← hallowed]
        congr 1
        apply List.map_congr_left
        intro b hb
        have hb' := hat b hb
        rw [(happended b hb).blockLevel_eq hn, Option.some_inj, ← hlevel, add_left_inj,
          energyLevel_eq_iff (div_pos (happended b hb).sumSquares_pos hn'),
          levelEnergy_energyLevel hpos, div_eq_iff hn'.ne'] at hb'
        rw [hb', mul_comm]
      rw [Option.some_inj, ← eq_sub_iff_add_eq, energyLevel_eq_iff hmean, heq,
        mean_eq_iff hcount hextra]
      exact hsum
    · intro habove
      refine ⟨_, rfl, ?_⟩
      have hsum : missing a.windowBlocks blocks * n *
          a.allowance n (carried a.windowBlocks blocks) (missing a.windowBlocks blocks) <
            (appended.map (·.sumSquares)).sum := by
        rw [← hallowed]
        apply List.sum_lt_sum_of_ne_nil hne
        intro b hb
        obtain ⟨level, hb', hlt⟩ := habove b hb
        rw [(happended b hb).blockLevel_eq hn, Option.some_inj] at hb'
        rw [← hlevel, ← hb', add_lt_add_iff_right,
          lt_energyLevel_iff (div_pos (happended b hb).sumSquares_pos hn'),
          levelEnergy_energyLevel hpos, lt_div_iff₀ hn'] at hlt
        rw [mul_comm]
        exact hlt
      rw [← sub_lt_iff_lt_add, lt_energyLevel_iff hmean, heq, lt_mean_iff hcount hextra]
      exact hsum
  · rw [ite_eq_right_iff]
    have hbudget : a.budget n ((counted (carried a.windowBlocks blocks)).length +
        missing a.windowBlocks blocks) =
        ((counted (carried a.windowBlocks blocks)).length * n +
          missing a.windowBlocks blocks * n) * levelEnergy (a.limitDb - a.referenceOffsetDb) := by
      rw [AlarmInputs.budget, Nat.cast_add, add_mul]
    rw [hbudget, ← not_lt, ← meanAllowance_pos_iff hextra]
    constructor
    · intro h hpos
      exact absurd (h hpos) (Option.some_ne_none _)
    · intro h hpos
      exact absurd hpos h

end Real

/-- A block of one sample. -/
noncomputable def oneSample (e : ℝ) : Block ℝ ℝ where
  blockIndex := 0
  blockSamples := 1
  droppedSamples := 0
  sumSquares := e
  maxFastDb := 0
  maxSlowDb := 0
  peakDb := 0
  flags := 0

/-- Two blocks of a second, one sample each, under a limit of 0 dB. -/
noncomputable def twoSeconds : AlarmInputs ℝ := ⟨2, 0, 1, 1, 0⟩

theorem counts_oneSample {e : ℝ} (he : 0 < e) : Counts 1 (oneSample e) := by
  constructor
  · change ((0 : UInt32) &&& calibrationInvalidFlag != 0) = false
    decide
  · rfl
  · exact he

/-- Half a unit of energy leaves one and a half to the second block. -/
theorem headroom_inverts_half : ∃ h,
    twoSeconds.headroom realFunctions [oneSample (1 / 2)] = some h ∧
    twoSeconds.blockLevel (oneSample (3 / 2)) = some h ∧
    (combineBlocks realFunctions
      (complianceWindow 2 ([oneSample (1 / 2)] ++ [oneSample (3 / 2)])) 1 0).leqDb = some 0 := by
  have hcounts : ∀ e : ℝ, 0 < e → ∀ b ∈ [oneSample e], Counts 1 b := by
    intro e he b hb
    rw [List.mem_singleton.mp hb]
    exact counts_oneSample he
  have huniform := uniform_of_counts (hcounts (1 / 2) (by norm_num))
  have hcounted : counted [oneSample (1 / 2)] ≠ [] := List.cons_ne_nil _ _
  have hsamples : twoSeconds.blockSeconds * twoSeconds.sampleRate = (1 : ℕ) := by
    simp [twoSeconds]
  have hallowance : twoSeconds.allowance 1 (carried 2 [oneSample (1 / 2)])
      (missing 2 [oneSample (1 / 2)]) = 3 / 2 := by
    have hzero : levelEnergy (twoSeconds.limitDb - twoSeconds.referenceOffsetDb) = 1 := by
      simp [twoSeconds, levelEnergy]
    have henergy : countedEnergy (carried 2 [oneSample (1 / 2)]) = 1 / 2 :=
      List.sum_singleton
    have hcount : (counted (carried 2 [oneSample (1 / 2)])).length = 1 := rfl
    rw [AlarmInputs.allowance, meanAllowance, hzero, henergy, hcount, missing, if_pos (by decide)]
    norm_num
  have hreported : twoSeconds.headroom realFunctions [oneSample (1 / 2)] =
      some (energyLevel (3 / 2) + 0) := by
    rw [headroom_eq (by decide) one_pos one_pos hsamples huniform fun _ => hcounted]
    change (if 0 < twoSeconds.allowance 1 (carried 2 _) (missing 2 _) then
      some (energyLevel (twoSeconds.allowance 1 (carried 2 _) (missing 2 _)) + 0) else none) = _
    rw [hallowance, if_pos (by norm_num)]
  have hlevel : twoSeconds.blockLevel (oneSample (3 / 2)) = some (energyLevel (3 / 2) + 0) := by
    rw [(counts_oneSample (by norm_num)).blockLevel_eq one_pos, Nat.cast_one, div_one]
    rfl
  refine ⟨_, hreported, hlevel, ?_⟩
  apply ((headroom_inverts twoSeconds [oneSample (1 / 2)] 1 (by decide) one_pos one_pos hsamples
    huniform fun _ => hcounted).1 _ hreported [oneSample (3 / 2)] rfl
    (hcounts (3 / 2) (by norm_num))).1
  intro b hb
  rw [List.mem_singleton.mp hb, hlevel]

end Headroom

end RtaTool
