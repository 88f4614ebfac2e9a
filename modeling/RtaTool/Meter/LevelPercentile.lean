import Mathlib.Data.List.GetD
import RtaTool.Lib.SortedRank
import RtaTool.Meter.LevelHistogram

/-!
# Percentiles of a histogram

Sorted levels are sorted by slot too. So the slot of the level at an index is found by counting,
which is what `pick` does with the counters, and a percentile of the histogram is that of the
levels with each of them at the centre of its bin.

Which of the sorted levels a percentile depends on is asked of the interpolation itself: whether the
result would be another with another level at that index.

## Main definitions

* `LevelHistogram.pick`, `LevelHistogram.percentile`, `percentileLevelDb`
* `rankOf` -- the slots, numbered from below to above
* `InSpan`, `DependsOn`

## Main results

* `pick_eq` -- a pick is the slot of the sorted level
* `percentile_spec` -- **Headline.** What the histogram's percentile is against that of the levels
-/

namespace RtaTool

namespace Meter

variable {K : Type} [Field K] [LinearOrder K] [FloorRing K]

/-! ### Percentiles -/

/-- `LnAbsence`. -/
inductive LnAbsence
  | none
  | belowSpan
  | aboveSpan
  | noData
  deriving DecidableEq, Repr

/-- `LnResult`. -/
structure LnResult (K : Type) where
  db : Option K
  absence : LnAbsence

/-- `Pick`. -/
structure LevelPick (K : Type) where
  inSpan : Bool
  side : LnAbsence
  db : K

/-- `pos` of a percentile of `count` levels. -/
def percentilePos (count : ℕ) (n : K) : K := (count - 1 : ℕ) * (1 - n / 100)

/-- `lo`. -/
def percentileLo (count : ℕ) (n : K) : ℕ := ⌊percentilePos count n⌋.toNat

/-- `hi`. -/
def percentileHi (count : ℕ) (n : K) : ℕ := min (percentileLo count n + 1) (count - 1)

/-- `frac`. -/
def percentileFrac (count : ℕ) (n : K) : K := percentilePos count n - percentileLo count n

namespace LevelHistogram

/-- `binCentreDb(bin)`. -/
def binCentreDb (h : LevelHistogram K) (bin : ℕ) : K := h.baseDb + (bin + 1 / 2) * (1 / 10)

/-- The loop of `pick`, over the counters that are left. -/
def pickFrom (h : LevelHistogram K) : List UInt32 → ℕ → ℕ → LevelPick K
  | [], _, _ => { inSpan := false, side := .aboveSpan, db := 0 }
  | c :: counts, bin, remaining =>
    if remaining < c.toNat then { inSpan := true, side := .none, db := h.binCentreDb bin }
    else pickFrom h counts (bin + 1) (remaining - c.toNat)

/-- `pick(k)`. -/
def pick (h : LevelHistogram K) (k : ℕ) : LevelPick K :=
  if k < h.belowSpan.toNat then { inSpan := false, side := .belowSpan, db := 0 }
  else h.pickFrom h.counts.toList 0 (k - h.belowSpan.toNat)

/-- `percentile(n)`. -/
def percentile (h : LevelHistogram K) (n : K) : Except HistogramError (LnResult K) :=
  if ¬0 ≤ n ∨ ¬n ≤ 100 then .error .percentRange
  else if h.total = 0 then .ok { db := none, absence := .noData }
  else
    let frac := percentileFrac h.total.toNat n
    let a := h.pick (percentileLo h.total.toNat n)
    if ¬a.inSpan then .ok { db := none, absence := a.side }
    else if frac = 0 then .ok { db := some a.db, absence := .none }
    else
      let b := h.pick (percentileHi h.total.toNat n)
      if ¬b.inSpan then .ok { db := none, absence := b.side }
      else .ok { db := some (a.db + frac * (b.db - a.db)), absence := .none }

end LevelHistogram

/-- What `percentileLevelDb` throws. -/
inductive PercentileError
  | empty
  | percentRange
  deriving DecidableEq, Repr

/-- `what()`. -/
def PercentileError.what : PercentileError → String
  | .empty => "percentileLevelDb: levelsDb must not be empty"
  | .percentRange => "percentileLevelDb: n must be in [0,100]"

/-- The level between two sorted ones. -/
def interpolate (count : ℕ) (n : K) (sorted : ℕ → K) : K :=
  sorted (percentileLo count n) +
    percentileFrac count n * (sorted (percentileHi count n) - sorted (percentileLo count n))

/-- `std::sort`. -/
def sortLevels (levels : List K) : List K := levels.mergeSort fun a b => decide (a ≤ b)

/-- `percentileLevelDb(levelsDb, n)`. -/
def percentileLevelDb (levelsDb : List K) (n : K) : Except PercentileError K :=
  if levelsDb = [] then .error .empty
  else if ¬0 ≤ n ∨ ¬n ≤ 100 then .error .percentRange
  else .ok (interpolate (sortLevels levelsDb).length n fun k => (sortLevels levelsDb).getD k 0)

/-! ### What a percentile depends on -/

/-- A level is over the span's bottom and under its top. -/
def InSpan (baseDb levelDb : K) : Prop :=
  baseDb ≤ levelDb ∧ levelDb < baseDb + kBinCount * (1 / 10)

/-- The result is another for some change at one index. -/
def DependsOn (f : (ℕ → K) → K) (k : ℕ) : Prop :=
  ∃ v v' : ℕ → K, (∀ j ≠ k, v j = v' j) ∧ f v ≠ f v'

section Interpolation

variable [IsStrictOrderedRing K] (count : ℕ) {n : K} (hlow : 0 ≤ n) (hhigh : n ≤ 100)
include hlow hhigh

theorem percentilePos_mem :
    0 ≤ percentilePos count n ∧ percentilePos count n ≤ (count - 1 : ℕ) := by
  have hshare : 0 ≤ n / 100 := div_nonneg hlow (by norm_num)
  have hrest : 0 ≤ 1 - n / 100 := by
    rw [sub_nonneg, div_le_one (by norm_num)]
    exact hhigh
  refine ⟨mul_nonneg (Nat.cast_nonneg _) hrest, ?_⟩
  exact mul_le_of_le_one_right (Nat.cast_nonneg _) (sub_le_self _ hshare)

theorem percentileFrac_mem : 0 ≤ percentileFrac count n ∧ percentileFrac count n < 1 := by
  have hfloor : ((percentileLo count n : ℕ) : ℤ) = ⌊percentilePos count n⌋ :=
    Int.toNat_of_nonneg (Int.floor_nonneg.mpr (percentilePos_mem count hlow hhigh).1)
  have hcast : ((percentileLo count n : ℕ) : K) = (⌊percentilePos count n⌋ : ℤ) := by
    rw [← hfloor, Int.cast_natCast]
  have hlt := Int.lt_floor_add_one (percentilePos count n)
  rw [percentileFrac, hcast]
  exact ⟨sub_nonneg.mpr (Int.floor_le _), by linarith⟩

theorem percentileLo_le : percentileLo count n ≤ count - 1 := by
  have hle : ((percentileLo count n : ℕ) : K) ≤ (count - 1 : ℕ) := by
    have hfrac := (percentileFrac_mem count hlow hhigh).1
    have hpos := (percentilePos_mem count hlow hhigh).2
    rw [percentileFrac] at hfrac
    linarith
  exact_mod_cast hle

/-- Between two levels there are two. -/
theorem percentileLo_lt (hfrac : percentileFrac count n ≠ 0) :
    percentileLo count n < percentileHi count n := by
  rw [percentileHi, lt_min_iff]
  refine ⟨Nat.lt_succ_self _, lt_of_le_of_ne (percentileLo_le count hlow hhigh) ?_⟩
  intro heq
  have hpos := (percentilePos_mem count hlow hhigh).2
  have hnonneg := (percentileFrac_mem count hlow hhigh).1
  rw [← heq] at hpos
  rw [percentileFrac] at hfrac hnonneg
  exact hfrac (le_antisymm (by linarith) hnonneg)

/-- A percentile depends on the lower level, and on the upper one unless it is at the lower. -/
theorem dependsOn_interpolate (k : ℕ) :
    DependsOn (interpolate count n) k ↔
      k = percentileLo count n ∨ (percentileFrac count n ≠ 0 ∧ k = percentileHi count n) := by
  constructor
  · rintro ⟨v, v', hsame, hne⟩
    by_contra! hother
    have hlo : v (percentileLo count n) = v' (percentileLo count n) := hsame _ (Ne.symm hother.1)
    refine hne ?_
    rw [interpolate, interpolate, hlo]
    by_cases hfrac : percentileFrac count n = 0
    · rw [hfrac, zero_mul, zero_mul]
    · rw [hsame _ (Ne.symm (hother.2 hfrac))]
  · intro h
    refine ⟨fun j => if j = k then 1 else 0, fun _ => 0, fun j hj => if_neg hj, ?_⟩
    have hlt := (percentileFrac_mem count hlow hhigh).2
    rw [interpolate, interpolate, sub_zero, mul_zero, add_zero]
    rcases h with rfl | ⟨hfrac, rfl⟩
    · rw [if_pos rfl]
      split
      · rw [sub_self, mul_zero, add_zero]
        exact one_ne_zero
      · rw [zero_sub, mul_neg, mul_one, ← sub_eq_add_neg]
        exact (sub_pos.mpr hlt).ne'
    · rw [if_neg (percentileLo_lt count hlow hhigh hfrac).ne, if_pos rfl, zero_add, sub_zero,
        mul_one]
      exact hfrac

end Interpolation

/-! ### Slots in their order -/

/-- The slots, numbered from below to above. -/
def slotRank : LevelSlot → ℕ
  | .below => 0
  | .bin i => i + 1
  | .above => kBinCount + 1

theorem slotRank_injective : Function.Injective slotRank := by
  intro s t h
  cases s with
  | below =>
    cases t with
    | below => rfl
    | above => cases h
    | bin j => cases h
  | above =>
    cases t with
    | below => cases h
    | above => rfl
    | bin j =>
      have hj := j.isLt
      simp only [slotRank] at h
      omega
  | bin i =>
    have hi := i.isLt
    cases t with
    | below => cases h
    | above =>
      simp only [slotRank] at h
      omega
    | bin j =>
      simp only [slotRank, Nat.add_right_cancel_iff, Fin.val_inj] at h
      rw [h]

/-- The slot of a level, by its number. -/
def rankOf (baseDb levelDb : K) : ℕ :=
  min (⌊(levelDb - baseDb) / (1 / 10)⌋ + 1).toNat (kBinCount + 1)

section Slots

variable [IsStrictOrderedRing K]

theorem slotOf_exact (baseDb levelDb : K) : ∃ slot,
    slotOf (.exact K) baseDb levelDb = some slot ∧ slotRank slot = rankOf baseDb levelDb := by
  set pos := ⌊(levelDb - baseDb) / (1 / 10)⌋ with hpos
  have hfloor : ⌊((pos : ℤ) : K)⌋ = pos := Int.floor_intCast pos
  have hlow : decide (((pos : ℤ) : K) < 0) = decide (pos < 0) := by
    rw [decide_eq_decide]
    exact Int.cast_lt_zero
  have hhigh : decide (((kBinCount : ℕ) : K) ≤ ((pos : ℤ) : K)) = decide ((kBinCount : ℤ) ≤ pos) := by
    rw [decide_eq_decide, ← Int.cast_natCast, Int.cast_le]
  have hslot : slotOf (.exact K) baseDb levelDb =
      if pos < 0 then some .below
      else if (kBinCount : ℤ) ≤ pos then some .above
      else if hbin : pos.toNat < kBinCount then some (.bin ⟨pos.toNat, hbin⟩) else none := by
    simp only [slotOf, LevelArith.exact, not_true_eq_false, if_false, ← hpos, hlow, hhigh, hfloor,
      decide_eq_true_eq]
  rw [hslot, rankOf, ← hpos]
  split_ifs with hbelow habove hbin
  · refine ⟨.below, rfl, ?_⟩
    rw [slotRank]
    omega
  · refine ⟨.above, rfl, ?_⟩
    rw [slotRank]
    omega
  · refine ⟨.bin ⟨pos.toNat, hbin⟩, rfl, ?_⟩
    show pos.toNat + 1 = _
    omega
  · omega

theorem slotOf_exact_iff (baseDb levelDb : K) (slot : LevelSlot) :
    slotOf (.exact K) baseDb levelDb = some slot ↔ rankOf baseDb levelDb = slotRank slot := by
  obtain ⟨slot', hslot, hrank⟩ := slotOf_exact baseDb levelDb
  rw [hslot, ← hrank, Option.some.injEq]
  exact ⟨fun h => congrArg slotRank h, fun h => slotRank_injective h⟩

theorem rankOf_mono (baseDb : K) {x y : K} (h : x ≤ y) : rankOf baseDb x ≤ rankOf baseDb y := by
  have hdiv : (x - baseDb) / (1 / 10) ≤ (y - baseDb) / (1 / 10) :=
    div_le_div_of_nonneg_right (sub_le_sub_right h baseDb) (by norm_num)
  have hfloor := Int.floor_le_floor hdiv
  rw [rankOf, rankOf]
  omega

theorem inSpan_iff (baseDb levelDb : K) : InSpan baseDb levelDb ↔
    rankOf baseDb levelDb ≠ 0 ∧ rankOf baseDb levelDb ≠ kBinCount + 1 := by
  have hwidth : (0 : K) < 1 / 10 := by norm_num
  have hbottom : baseDb ≤ levelDb ↔ 0 ≤ ⌊(levelDb - baseDb) / (1 / 10)⌋ := by
    rw [Int.floor_nonneg, le_div_iff₀ hwidth, zero_mul, sub_nonneg]
  have htop : levelDb < baseDb + kBinCount * (1 / 10) ↔
      ⌊(levelDb - baseDb) / (1 / 10)⌋ < (kBinCount : ℤ) := by
    rw [Int.floor_lt, Int.cast_natCast, div_lt_iff₀ hwidth, sub_lt_iff_lt_add']
  rw [InSpan, hbottom, htop, rankOf]
  omega

theorem rankOf_eq_zero_iff (baseDb levelDb : K) :
    rankOf baseDb levelDb = 0 ↔ levelDb < baseDb := by
  have hbottom : ⌊(levelDb - baseDb) / (1 / 10)⌋ < 0 ↔ levelDb < baseDb := by
    rw [Int.floor_lt, Int.cast_zero, div_lt_iff₀ (by norm_num), zero_mul, sub_neg]
  rw [← hbottom, rankOf]
  omega

theorem abs_centre_sub_le {baseDb levelDb : K} (h : InSpan baseDb levelDb) :
    |baseDb + (((rankOf baseDb levelDb - 1 : ℕ) : K) + 1 / 2) * (1 / 10) - levelDb| ≤
      1 / 10 / 2 := by
  obtain ⟨hlow, hhigh⟩ := (inSpan_iff baseDb levelDb).mp h
  have hbin : ((rankOf baseDb levelDb - 1 : ℕ) : ℤ) = ⌊(levelDb - baseDb) / (1 / 10)⌋ := by
    rw [rankOf] at hlow hhigh ⊢
    omega
  have hcast : ((rankOf baseDb levelDb - 1 : ℕ) : K) =
      (⌊(levelDb - baseDb) / (1 / 10)⌋ : ℤ) := by
    rw [← hbin, Int.cast_natCast]
  have hle := Int.floor_le ((levelDb - baseDb) / (1 / 10))
  have hlt := Int.lt_floor_add_one ((levelDb - baseDb) / (1 / 10))
  rw [hcast, abs_le]
  rw [le_div_iff₀ (by norm_num)] at hle
  rw [div_lt_iff₀ (by norm_num)] at hlt
  constructor <;> linarith

end Slots

/-! ### Picking by rank -/

section Picks

variable [IsStrictOrderedRing K]

/-- What a pick gives of a level in the slot of the number given. -/
def pickAt (baseDb : K) (rank : ℕ) : LevelPick K :=
  if rank = 0 then { inSpan := false, side := .belowSpan, db := 0 }
  else if rank = kBinCount + 1 then { inSpan := false, side := .aboveSpan, db := 0 }
  else
    { inSpan := true
      side := .none
      db := baseDb + (((rank - 1 : ℕ) : K) + 1 / 2) * (1 / 10) }

/-- A histogram none of whose counters is full. -/
structure Faithful (baseDb : K) (sorted : List K) (h : LevelHistogram K) : Prop where
  baseDb_eq : h.baseDb = baseDb
  pairwise : sorted.Pairwise fun a b => rankOf baseDb a ≤ rankOf baseDb b
  counter : ∀ slot, (h.counter slot).toNat =
    sorted.countP fun x => decide (rankOf baseDb x = slotRank slot)
  total : h.total.toNat = sorted.length

theorem sortLevels_perm (levels : List K) : (sortLevels levels).Perm levels :=
  List.mergeSort_perm _ _

theorem sortLevels_pairwise (levels : List K) :
    (sortLevels levels).Pairwise fun a b => a ≤ b := by
  have htrans : ∀ a b c : K, decide (a ≤ b) = true → decide (b ≤ c) = true →
      decide (a ≤ c) = true := by
    intro a b c hab hbc
    rw [decide_eq_true_eq] at hab hbc ⊢
    exact hab.trans hbc
  have htotal : ∀ a b : K, (decide (a ≤ b) || decide (b ≤ a)) = true := by
    intro a b
    rw [Bool.or_eq_true, decide_eq_true_eq, decide_eq_true_eq]
    exact le_total a b
  have hsorted := List.pairwise_mergeSort htrans htotal levels
  rw [sortLevels]
  simpa using hsorted

theorem slotCount_eq (baseDb : K) (levels : List K) (slot : LevelSlot) :
    slotCount (.exact K) baseDb levels slot =
      (sortLevels levels).countP fun x => decide (rankOf baseDb x = slotRank slot) := by
  rw [slotCount, (sortLevels_perm levels).countP_eq]
  simp only [slotOf_exact_iff]

/-- The total does not wrap, for it is the sum of the counters. -/
theorem length_lt_of_counts {baseDb : K} {levels : List K}
    (hsat : ∀ slot, slotCount (.exact K) baseDb levels slot ≤ kCounterMax) :
    levels.length < 2 ^ 64 := by
  have hcount : ∀ r, (sortLevels levels).countP (fun x => decide (rankOf baseDb x = r)) ≤
      kCounterMax := by
    intro r
    by_cases hr : ∃ slot, slotRank slot = r
    · obtain ⟨slot, rfl⟩ := hr
      rw [← slotCount_eq]
      exact hsat slot
    · have hnone : (sortLevels levels).countP (fun x => decide (rankOf baseDb x = r)) = 0 := by
        rw [List.countP_eq_zero]
        intro x _ hx
        obtain ⟨slot, -, hrank⟩ := slotOf_exact baseDb x
        exact hr ⟨slot, hrank.trans (of_decide_eq_true hx)⟩
      rw [hnone]
      exact Nat.zero_le _
  have hall : (sortLevels levels).countP (fun x => decide (rankOf baseDb x < kBinCount + 2)) =
      (sortLevels levels).length := by
    rw [List.countP_eq_length]
    intro x _
    rw [decide_eq_true_eq, rankOf]
    omega
  have hle := countP_lt_le_mul (sortLevels levels) hcount (kBinCount + 2)
  rw [hall, (sortLevels_perm levels).length_eq, kBinCount, kCounterMax] at hle
  omega

theorem faithful_of_ofLevels {baseDb : K} {levels : List K}
    (hsat : ∀ slot, slotCount (.exact K) baseDb levels slot ≤ kCounterMax)
    {h : LevelHistogram K} (hlevels : LevelHistogram.ofLevels (.exact K) baseDb levels = .ok h) :
    Faithful baseDb (sortLevels levels) h := by
  have hslots : ∀ x ∈ levels, (slotOf (.exact K) baseDb x).isSome := by
    intro x _
    obtain ⟨slot, hslot, -⟩ := slotOf_exact baseDb x
    rw [hslot]
    rfl
  obtain ⟨t, ht, hc⟩ := LevelHistogram.exists_counts levels hslots
  obtain rfl := Except.ok.inj (hlevels.symm.trans ht)
  refine
    { baseDb_eq := hc.baseDb_eq
      pairwise := (sortLevels_pairwise levels).imp fun hab => rankOf_mono baseDb hab
      counter := fun slot => ?_
      total := ?_ }
  · rw [hc.counter, Nat.min_eq_left (hsat slot), slotCount_eq]
  · rw [hc.total, UInt64.toNat_ofNat', (sortLevels_perm levels).length_eq]
    exact Nat.mod_eq_of_lt (length_lt_of_counts hsat)

namespace Faithful

variable {baseDb : K} {sorted : List K} {h : LevelHistogram K}

theorem pickFrom_eq (hf : Faithful baseDb sorted h) {k : ℕ} (hk : k < sorted.length) :
    ∀ (counts : List UInt32) (bin : ℕ), h.counts.toList.drop bin = counts → bin ≤ kBinCount →
      sorted.countP (fun x => decide (rankOf baseDb x < bin + 1)) ≤ k →
      h.pickFrom counts bin
          (k - sorted.countP fun x => decide (rankOf baseDb x < bin + 1)) =
        pickAt baseDb (rankOf baseDb sorted[k]) := by
  intro counts
  induction counts with
  | nil =>
    intro bin hdrop hbin hle
    have hend : bin = kBinCount := by
      have hlength := congrArg List.length hdrop
      rw [List.length_drop, Vector.length_toList, List.length_nil] at hlength
      omega
    have hrank := (countP_lt_le_iff hf.pairwise hk (bin + 1)).mp hle
    have htop : rankOf baseDb sorted[k] = kBinCount + 1 := by
      have hmax : rankOf baseDb sorted[k] ≤ kBinCount + 1 := Nat.min_le_right _ _
      omega
    rw [htop, pickAt, if_neg (Nat.succ_ne_zero _), if_pos rfl, LevelHistogram.pickFrom]
  | cons c counts ih =>
    intro bin hdrop hbin hle
    have hlt : bin < h.counts.toList.length := by
      by_contra hge
      rw [List.drop_of_length_le (Nat.not_lt.mp hge)] at hdrop
      cases hdrop
    have hlt' : bin < kBinCount := by rwa [Vector.length_toList] at hlt
    have hcons := hdrop
    rw [List.drop_eq_getElem_cons hlt, List.cons.injEq] at hcons
    have hcount : c.toNat = sorted.countP fun x => decide (rankOf baseDb x = bin + 1) := by
      rw [← hcons.1]
      exact hf.counter (.bin ⟨bin, hlt'⟩)
    have hsucc := countP_lt_succ (rankOf baseDb) sorted (bin + 1)
    have hhere := countP_lt_le_iff hf.pairwise hk (bin + 1)
    have hnext := countP_lt_le_iff hf.pairwise hk (bin + 1 + 1)
    rw [LevelHistogram.pickFrom]
    split
    · rename_i hin
      have hrank : rankOf baseDb sorted[k] = bin + 1 := by omega
      rw [hrank, pickAt, if_neg (Nat.succ_ne_zero _), if_neg (by omega), Nat.add_sub_cancel,
        LevelHistogram.binCentreDb, hf.baseDb_eq]
    · rename_i hout
      have hle' : sorted.countP (fun x => decide (rankOf baseDb x < bin + 1 + 1)) ≤ k := by omega
      have hrest := ih (bin + 1) hcons.2 hlt' hle'
      rw [hsucc, ← hcount, ← Nat.sub_sub] at hrest
      exact hrest

/-- A pick is the slot of the sorted level. -/
theorem pick_eq (hf : Faithful baseDb sorted h) {k : ℕ} (hk : k < sorted.length) :
    h.pick k = pickAt baseDb (rankOf baseDb sorted[k]) := by
  have hbelow : h.belowSpan.toNat = sorted.countP fun x => decide (rankOf baseDb x < 0 + 1) := by
    have hcounter := hf.counter .below
    simp only [Nat.zero_add, Nat.lt_one_iff]
    exact hcounter
  have hrank := countP_lt_le_iff hf.pairwise hk (0 + 1)
  rw [LevelHistogram.pick]
  split
  · rename_i hlt
    have hzero : rankOf baseDb sorted[k] = 0 := by omega
    rw [hzero, pickAt, if_pos rfl]
  · rename_i hge
    rw [hbelow]
    exact hf.pickFrom_eq hk h.counts.toList 0 rfl (Nat.zero_le _) (by omega)

end Faithful

/-- The side of a level that is not in the span. -/
def sideOf (baseDb levelDb : K) : LnAbsence := if levelDb < baseDb then .belowSpan else .aboveSpan

theorem pickAt_of_inSpan {baseDb levelDb : K} (h : InSpan baseDb levelDb) :
    (pickAt baseDb (rankOf baseDb levelDb)).inSpan = true ∧
      |(pickAt baseDb (rankOf baseDb levelDb)).db - levelDb| ≤ 1 / 10 / 2 := by
  obtain ⟨hlow, hhigh⟩ := (inSpan_iff baseDb levelDb).mp h
  rw [pickAt, if_neg hlow, if_neg hhigh]
  exact ⟨rfl, abs_centre_sub_le h⟩

theorem pickAt_of_not_inSpan {baseDb levelDb : K} (h : ¬InSpan baseDb levelDb) :
    (pickAt baseDb (rankOf baseDb levelDb)).inSpan = false ∧
      (pickAt baseDb (rankOf baseDb levelDb)).side = sideOf baseDb levelDb := by
  rw [sideOf]
  by_cases hlow : rankOf baseDb levelDb = 0
  · rw [pickAt, if_pos hlow, if_pos ((rankOf_eq_zero_iff baseDb levelDb).mp hlow)]
    exact ⟨rfl, rfl⟩
  · have htop : rankOf baseDb levelDb = kBinCount + 1 := by
      by_contra hhigh
      exact h ((inSpan_iff baseDb levelDb).mpr ⟨hlow, hhigh⟩)
    rw [pickAt, if_neg hlow, if_pos htop,
      if_neg fun hlt => hlow ((rankOf_eq_zero_iff baseDb levelDb).mpr hlt)]
    exact ⟨rfl, rfl⟩

/-- Between two levels that are moved by at most `d`, so is what is interpolated. -/
theorem abs_interpolate_sub_le {a b x y frac d : K} (hfrac : 0 ≤ frac) (hle : frac ≤ 1)
    (hx : |a - x| ≤ d) (hy : |b - y| ≤ d) :
    |a + frac * (b - a) - (x + frac * (y - x))| ≤ d := by
  have hsplit : a + frac * (b - a) - (x + frac * (y - x)) =
      (1 - frac) * (a - x) + frac * (b - y) := by ring
  calc |a + frac * (b - a) - (x + frac * (y - x))|
      ≤ |(1 - frac) * (a - x)| + |frac * (b - y)| := by
        rw [hsplit]
        exact abs_add_le _ _
    _ = (1 - frac) * |a - x| + frac * |b - y| := by
        rw [abs_mul, abs_mul, abs_of_nonneg (sub_nonneg.mpr hle), abs_of_nonneg hfrac]
    _ ≤ (1 - frac) * d + frac * d :=
        add_le_add (mul_le_mul_of_nonneg_left hx (sub_nonneg.mpr hle))
          (mul_le_mul_of_nonneg_left hy hfrac)
    _ = d := by ring

/-- **Headline.** While no counter is full, the percentile of a histogram is within half a width of
that of its levels. It is there exactly when every sorted level that the interpolation depends on is
in the span; where it is not, its absence is on the side of the first of them that is not. -/
theorem percentile_spec {levels : List K} (hne : levels ≠ []) {n : K} (hlow : 0 ≤ n)
    (hhigh : n ≤ 100) {baseDb : K}
    (hsat : ∀ slot, slotCount (.exact K) baseDb levels slot ≤ kCounterMax)
    {h : LevelHistogram K} (hlevels : LevelHistogram.ofLevels (.exact K) baseDb levels = .ok h) :
    ∃ r v, h.percentile n = .ok r ∧ percentileLevelDb levels n = .ok v ∧
      (∀ x, r.db = some x → |x - v| ≤ 1 / 10 / 2) ∧
      (r.db.isSome = true ↔ ∀ k, DependsOn (interpolate levels.length n) k →
        InSpan baseDb ((sortLevels levels).getD k 0)) ∧
      ∀ k, DependsOn (interpolate levels.length n) k →
        ¬InSpan baseDb ((sortLevels levels).getD k 0) →
        (∀ j < k, DependsOn (interpolate levels.length n) j →
          InSpan baseDb ((sortLevels levels).getD j 0)) →
        r.absence = sideOf baseDb ((sortLevels levels).getD k 0) := by
  have hf := faithful_of_ofLevels hsat hlevels
  have hlength : (sortLevels levels).length = levels.length := (sortLevels_perm levels).length_eq
  have hpos : 0 < levels.length := List.length_pos_iff.mpr hne
  have htotal : h.total.toNat = levels.length := hf.total.trans hlength
  have hsome : h.total ≠ 0 := by
    rintro hzero
    rw [hzero] at htotal
    exact hpos.ne htotal
  have hdepends := dependsOn_interpolate levels.length hlow hhigh
  obtain ⟨hfrac, hfracLt⟩ := percentileFrac_mem levels.length hlow hhigh
  have hlo := percentileLo_le levels.length hlow hhigh
  have hhi : percentileHi levels.length n ≤ levels.length - 1 := Nat.min_le_right _ _
  set sorted := fun k => (sortLevels levels).getD k 0 with hsorted
  have hpick : ∀ k ≤ levels.length - 1, h.pick k = pickAt baseDb (rankOf baseDb (sorted k)) := by
    intro k hk
    have hlt : k < (sortLevels levels).length := by omega
    rw [hf.pick_eq hlt, hsorted]
    dsimp only
    rw [List.getD_eq_getElem _ _ hlt]
  have href : percentileLevelDb levels n = .ok (interpolate levels.length n sorted) := by
    rw [percentileLevelDb, if_neg hne, if_neg (by simp [hlow, hhigh]), hlength]
  have hrun : h.percentile n =
      if ¬(h.pick (percentileLo levels.length n)).inSpan then
        .ok { db := none, absence := (h.pick (percentileLo levels.length n)).side }
      else if percentileFrac levels.length n = 0 then
        .ok { db := some (h.pick (percentileLo levels.length n)).db, absence := .none }
      else if ¬(h.pick (percentileHi levels.length n)).inSpan then
        .ok { db := none, absence := (h.pick (percentileHi levels.length n)).side }
      else
        .ok { db := some ((h.pick (percentileLo levels.length n)).db +
            percentileFrac levels.length n * ((h.pick (percentileHi levels.length n)).db -
              (h.pick (percentileLo levels.length n)).db)), absence := .none } := by
    rw [LevelHistogram.percentile, if_neg (by simp [hlow, hhigh]), if_neg hsome, htotal]
  rw [hpick _ hlo, hpick _ hhi] at hrun
  have hdependsLo := (hdepends (percentileLo levels.length n)).mpr (.inl rfl)
  by_cases ha : InSpan baseDb (sorted (percentileLo levels.length n))
  · obtain ⟨haIn, haNear⟩ := pickAt_of_inSpan ha
    rw [haIn, if_neg (not_not.mpr rfl)] at hrun
    by_cases hzero : percentileFrac levels.length n = 0
    · -- the upper level is not read
      rw [if_pos hzero] at hrun
      have hall : ∀ k, DependsOn (interpolate levels.length n) k → InSpan baseDb (sorted k) := by
        intro k hk
        rcases (hdepends k).mp hk with rfl | ⟨hne, -⟩
        · exact ha
        · exact absurd hzero hne
      refine ⟨_, _, hrun, href, ?_, iff_of_true rfl hall, fun k hk hout _ => absurd (hall k hk) hout⟩
      rintro x ⟨⟩
      rw [interpolate, hzero, zero_mul, add_zero]
      exact haNear
    · have hdependsHi := (hdepends (percentileHi levels.length n)).mpr (.inr ⟨hzero, rfl⟩)
      rw [if_neg hzero] at hrun
      by_cases hb : InSpan baseDb (sorted (percentileHi levels.length n))
      · obtain ⟨hbIn, hbNear⟩ := pickAt_of_inSpan hb
        rw [hbIn, if_neg (not_not.mpr rfl)] at hrun
        have hall : ∀ k, DependsOn (interpolate levels.length n) k → InSpan baseDb (sorted k) := by
          intro k hk
          rcases (hdepends k).mp hk with rfl | ⟨-, rfl⟩
          · exact ha
          · exact hb
        refine ⟨_, _, hrun, href, ?_, iff_of_true rfl hall,
          fun k hk hout _ => absurd (hall k hk) hout⟩
        rintro x ⟨⟩
        exact abs_interpolate_sub_le hfrac hfracLt.le haNear hbNear
      · obtain ⟨hbOut, hbSide⟩ := pickAt_of_not_inSpan hb
        rw [hbOut, if_pos Bool.false_ne_true] at hrun
        refine ⟨_, _, hrun, href, fun x hx => (by cases hx), ?_, fun k hk hout _ => ?_⟩
        · exact iff_of_false Bool.false_ne_true fun hall => hb (hall _ hdependsHi)
        · rcases (hdepends k).mp hk with rfl | ⟨-, rfl⟩
          · exact absurd ha hout
          · exact hbSide
  · obtain ⟨haOut, haSide⟩ := pickAt_of_not_inSpan ha
    rw [haOut, if_pos Bool.false_ne_true] at hrun
    refine ⟨_, _, hrun, href, fun x hx => (by cases hx), ?_, fun k hk hout hfirst => ?_⟩
    · exact iff_of_false Bool.false_ne_true fun hall => ha (hall _ hdependsLo)
    · rcases (hdepends k).mp hk with rfl | ⟨hne, rfl⟩
      · exact haSide
      · exact absurd (hfirst _ (percentileLo_lt levels.length hlow hhigh hne) hdependsLo) ha

end Picks

/-- Three levels, the lowest of which is below the span. -/
theorem percentile_spec_three : ∃ h r v,
    LevelHistogram.ofLevels (.exact ℚ) 0 [-5, 2, 40] = .ok h ∧
      h.percentile 10 = .ok r ∧ percentileLevelDb [-5, 2, 40] (10 : ℚ) = .ok v ∧
      ∀ x, r.db = some x → |x - v| ≤ 1 / 10 / 2 := by
  have hslots : ∀ x ∈ ([-5, 2, 40] : List ℚ), (slotOf (.exact ℚ) 0 x).isSome := by
    intro x _
    obtain ⟨slot, hslot, -⟩ := slotOf_exact (0 : ℚ) x
    rw [hslot]
    rfl
  obtain ⟨h, hlevels, -⟩ := LevelHistogram.exists_counts _ hslots
  have hsat : ∀ slot, slotCount (.exact ℚ) 0 [-5, 2, 40] slot ≤ kCounterMax :=
    fun slot => List.countP_le_length.trans (by decide)
  obtain ⟨r, v, hr, hv, hnear, -⟩ := percentile_spec (by simp) (n := 10) (by norm_num) (by norm_num)
    hsat hlevels
  exact ⟨h, r, v, hlevels, hr, hv, hnear⟩

end Meter

end RtaTool
