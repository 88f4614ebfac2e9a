import Mathlib.Data.Fintype.Sum
import RtaTool.Lib.Binary64Arith
import RtaTool.Lib.Numerals

/-!
# The level histogram

Two thousand bins of 0.1 dB from a base, and two counters beside them for what is below and above.
The bins and the two counters stop at the greatest number they have; the total wraps.

What a level does to the counters depends on where it falls and on nothing else, `slotOf`. So a
histogram has of each slot the number of levels that fell there, as far as the counter goes, and
histograms of two lists are merged into that of the two lists together: cutting two counts off at
a bound, then their sum, is cutting off the sum.

`add` is written over the arithmetic that it uses. There are two of them here: that of doubles, and
the exact one of an ordered field.

## Main definitions

* `LevelArith`, `LevelArith.binary64`, `LevelArith.exact`
* `LevelHistogram`, `LevelHistogram.add`, `LevelHistogram.merge`
* `LevelSlot`, `slotOf`
* `LevelHistogram.Counts` -- the histogram of a list

## Main results

* `LevelHistogram.Counts.add`, `LevelHistogram.Counts.merge`, `LevelHistogram.Counts.unique`
* `merge_ofLevels` -- **Headline.** Merging is adding one list after the other, in any order
-/

namespace RtaTool

namespace Meter

/-! ### Arithmetic -/

/-- `kBinCount`. -/
def kBinCount : ℕ := 2000

/-- What `add` and `merge` use of `double`. -/
structure LevelArith (D : Type) where
  isFinite : D → Bool
  sub : D → D → D
  div : D → D → D
  floor : D → D
  lt : D → D → Bool
  le : D → D → Bool
  eq : D → D → Bool
  toNat : D → ℕ
  zero : D
  /-- `kBinWidthDb`. -/
  binWidth : D
  /-- `static_cast<double>(kBinCount)`. -/
  binCount : D

/-- Doubles. -/
def LevelArith.binary64 : LevelArith Binary64Datum where
  isFinite := Binary64Datum.isFinite
  sub := Binary64Datum.sub
  div := Binary64Datum.div
  floor := Binary64Datum.floor
  lt := Binary64Datum.lt
  le := Binary64Datum.le
  eq := Binary64Datum.eq
  toNat := Binary64Datum.toNat
  zero := .ofRat false (0 : ℕ)
  binWidth := .ofRat false (1 / 10)
  binCount := .ofRat false kBinCount

/-- Exact numbers, all of them finite. -/
def LevelArith.exact (K : Type) [Field K] [LinearOrder K] [FloorRing K] : LevelArith K where
  isFinite _ := true
  sub := (· - ·)
  div := (· / ·)
  floor x := (⌊x⌋ : ℤ)
  lt x y := decide (x < y)
  le x y := decide (x ≤ y)
  eq x y := decide (x = y)
  toNat x := ⌊x⌋.toNat
  zero := 0
  binWidth := 1 / 10
  binCount := (kBinCount : ℕ)

/-! ### The histogram -/

/-- What a histogram throws, and the index of a level that is not a number over the base. -/
inductive HistogramError
  | basesDiffer
  | percentRange
  | undefinedIndex
  deriving DecidableEq, Repr

/-- `what()`. -/
def HistogramError.what : HistogramError → String
  | .basesDiffer => "LevelHistogram::merge: bases differ -- merging misaligned bins would " ++
      "shift every level in one of the two histograms"
  | .percentRange => "LevelHistogram::percentile: n must be in [0,100]"
  | .undefinedIndex => ""

/-- `LevelHistogram`. -/
structure LevelHistogram (D : Type) where
  baseDb : D
  counts : Vector UInt32 kBinCount
  belowSpan : UInt32
  aboveSpan : UInt32
  total : UInt64
  deriving DecidableEq

/-- `addSaturating(counter, amount)`. -/
def addSaturating (counter : UInt32) (amount : UInt64) : UInt32 :=
  let kMax : UInt64 := 4294967295
  let sum := counter.toUInt64 + amount
  (if kMax < sum then kMax else sum).toUInt32

namespace LevelHistogram

variable {D : Type}

/-- `LevelHistogram(baseDb)`. -/
def make (baseDb : D) : LevelHistogram D :=
  { baseDb := baseDb
    counts := Vector.replicate kBinCount 0
    belowSpan := 0
    aboveSpan := 0
    total := 0 }

/-- `reset()`. -/
def reset (h : LevelHistogram D) : LevelHistogram D := make h.baseDb

/-- `add(levelDb)`. A cast of what is not a number, or past the bins, has no meaning. -/
def add (A : LevelArith D) (h : LevelHistogram D) (levelDb : D) :
    Except HistogramError (LevelHistogram D) :=
  let h := { h with total := h.total + 1 }
  if ¬A.isFinite levelDb then
    if A.lt A.zero levelDb then .ok { h with aboveSpan := addSaturating h.aboveSpan 1 }
    else .ok { h with belowSpan := addSaturating h.belowSpan 1 }
  else
    let pos := A.floor (A.div (A.sub levelDb h.baseDb) A.binWidth)
    if A.lt pos A.zero then .ok { h with belowSpan := addSaturating h.belowSpan 1 }
    else if A.le A.binCount pos then .ok { h with aboveSpan := addSaturating h.aboveSpan 1 }
    else if hpos : A.toNat pos < kBinCount then
      .ok { h with
        counts := h.counts.set (A.toNat pos) (addSaturating (h.counts.get ⟨A.toNat pos, hpos⟩) 1) }
    else .error .undefinedIndex

/-- `merge(other)`. -/
def merge (A : LevelArith D) (h other : LevelHistogram D) :
    Except HistogramError (LevelHistogram D) :=
  if ¬A.eq h.baseDb other.baseDb then .error .basesDiffer
  else
    .ok { h with
      counts := Vector.zipWith (fun a b => addSaturating a b.toUInt64) h.counts other.counts
      belowSpan := addSaturating h.belowSpan other.belowSpan.toUInt64
      aboveSpan := addSaturating h.aboveSpan other.aboveSpan.toUInt64
      total := h.total + other.total }

/-- The histogram that some levels are added to, one after another. -/
def ofLevels (A : LevelArith D) (baseDb : D) (levels : List D) :
    Except HistogramError (LevelHistogram D) :=
  levels.foldlM (add A) (make baseDb)

end LevelHistogram

/-! ### Slots -/

/-- Where a level falls. -/
inductive LevelSlot
  | below
  | bin (i : Fin kBinCount)
  | above
  deriving DecidableEq

/-- Where a level falls over a base, if anywhere. -/
def slotOf {D : Type} (A : LevelArith D) (baseDb levelDb : D) : Option LevelSlot :=
  if ¬A.isFinite levelDb then some (if A.lt A.zero levelDb then .above else .below)
  else
    let pos := A.floor (A.div (A.sub levelDb baseDb) A.binWidth)
    if A.lt pos A.zero then some .below
    else if A.le A.binCount pos then some .above
    else if hpos : A.toNat pos < kBinCount then some (.bin ⟨A.toNat pos, hpos⟩)
    else none

namespace LevelHistogram

variable {D : Type}

/-- The counter of a slot. -/
def counter (h : LevelHistogram D) : LevelSlot → UInt32
  | .below => h.belowSpan
  | .bin i => h.counts.get i
  | .above => h.aboveSpan

/-- One more in a slot. -/
def bump (h : LevelHistogram D) (slot : LevelSlot) : LevelHistogram D :=
  let h := { h with total := h.total + 1 }
  match slot with
  | .below => { h with belowSpan := addSaturating h.belowSpan 1 }
  | .bin i => { h with counts := h.counts.set i (addSaturating (h.counts.get i) 1) }
  | .above => { h with aboveSpan := addSaturating h.aboveSpan 1 }

theorem add_eq (A : LevelArith D) (h : LevelHistogram D) (levelDb : D) :
    h.add A levelDb =
      (slotOf A h.baseDb levelDb).elim (.error .undefinedIndex) fun slot => .ok (h.bump slot) := by
  rw [add, slotOf]
  dsimp only
  split_ifs <;> rfl

end LevelHistogram

/-! ### Saturating counters -/

/-- The greatest number of a counter. -/
def kCounterMax : ℕ := 2 ^ 32 - 1

theorem toNat_addSaturating (counter : UInt32) {amount : UInt64} (h : amount.toNat < 2 ^ 32) :
    (addSaturating counter amount).toNat = min (counter.toNat + amount.toNat) kCounterMax := by
  have hcounter := counter.toNat_lt
  have hsum : (counter.toUInt64 + amount).toNat = counter.toNat + amount.toNat := by
    rw [UInt64.toNat_add, UInt32.toNat_toUInt64]
    omega
  rw [addSaturating, kCounterMax]
  simp only [UInt64.lt_iff_toNat_lt, hsum, UInt64.reduceToNat]
  split
  · simp
    omega
  · rw [UInt64.toNat_toUInt32, hsum]
    omega

/-- Cutting two counts off, then their sum, is cutting off the sum. -/
theorem min_add_min (a b m : ℕ) : min (min a m + min b m) m = min (a + b) m := by omega

/-! ### What a histogram has of a list -/

section Counts

variable {D : Type}

/-- How many of the levels fall in a slot. -/
def slotCount (A : LevelArith D) (baseDb : D) (levels : List D) (slot : LevelSlot) : ℕ :=
  levels.countP fun x => decide (slotOf A baseDb x = some slot)

namespace LevelHistogram

/-- The histogram of a list: of each slot the count, as far as the counter goes. -/
structure Counts (A : LevelArith D) (baseDb : D) (levels : List D) (h : LevelHistogram D) :
    Prop where
  baseDb_eq : h.baseDb = baseDb
  counter : ∀ slot, (h.counter slot).toNat = min (slotCount A baseDb levels slot) kCounterMax
  total : h.total = UInt64.ofNat levels.length

variable {A : LevelArith D} {baseDb : D} {levels : List D} {h : LevelHistogram D}

theorem get_eq_getElem {α : Type} {n : ℕ} (v : Vector α n) (i : Fin n) : v.get i = v[i.val] := rfl

theorem counter_bump (h : LevelHistogram D) (slot t : LevelSlot) :
    (h.bump slot).counter t = if t = slot then addSaturating (h.counter t) 1 else h.counter t := by
  cases slot with
  | below => cases t <;> simp [bump, counter]
  | above => cases t <;> simp [bump, counter]
  | bin i =>
    cases t with
    | below => simp [bump, counter]
    | above => simp [bump, counter]
    | bin j =>
      have hget : (h.counts.set i (addSaturating (h.counts.get i) 1)).get j =
          if i = j then addSaturating (h.counts.get i) 1 else h.counts.get j := by
        rw [get_eq_getElem, Vector.getElem_set]
        simp only [Fin.val_inj, get_eq_getElem]
      show (h.counts.set i (addSaturating (h.counts.get i) 1)).get j = _
      rw [hget]
      by_cases heq : i = j
      · subst heq
        simp [counter]
      · rw [if_neg heq, if_neg fun h => heq (LevelSlot.bin.inj h).symm]
        rfl

theorem Counts.make (A : LevelArith D) (baseDb : D) :
    Counts A baseDb [] (LevelHistogram.make baseDb) where
  baseDb_eq := rfl
  counter slot := by
    cases slot with
    | below => rfl
    | above => rfl
    | bin i =>
      show ((Vector.replicate kBinCount (0 : UInt32)).get i).toNat = _
      rw [get_eq_getElem, Vector.getElem_replicate]
      rfl
  total := rfl

theorem Counts.bump {x : D} {slot : LevelSlot} (hx : slotOf A baseDb x = some slot)
    (hc : Counts A baseDb levels h) : Counts A baseDb (levels ++ [x]) (h.bump slot) where
  baseDb_eq := by
    rw [← hc.baseDb_eq]
    cases slot <;> rfl
  counter t := by
    have hone : (1 : UInt64).toNat = 1 := rfl
    rw [counter_bump, slotCount, List.countP_append, List.countP_singleton, hx]
    split
    · rename_i heq
      subst heq
      rw [toNat_addSaturating _ (by decide), hc.counter, hone, if_pos (by simp), slotCount]
      omega
    · rename_i hne
      rw [if_neg (by simpa using fun h => hne h.symm), Nat.add_zero, hc.counter, slotCount]
  total := by
    have htotal : (h.bump slot).total = h.total + 1 := by cases slot <;> rfl
    rw [htotal, hc.total, List.length_append, List.length_singleton, UInt64.ofNat_add]
    rfl

theorem Counts.add {x : D} {slot : LevelSlot} (hx : slotOf A baseDb x = some slot)
    (hc : Counts A baseDb levels h) :
    h.add A x = .ok (h.bump slot) ∧ Counts A baseDb (levels ++ [x]) (h.bump slot) := by
  refine ⟨?_, hc.bump hx⟩
  rw [add_eq, hc.baseDb_eq, hx]
  rfl

theorem exists_counts (levels : List D) (hslots : ∀ x ∈ levels, (slotOf A baseDb x).isSome) :
    ∃ h, ofLevels A baseDb levels = .ok h ∧ Counts A baseDb levels h := by
  induction levels using List.reverseRecOn with
  | nil => exact ⟨_, rfl, .make A baseDb⟩
  | append_singleton levels x ih =>
    obtain ⟨h, hlevels, hc⟩ := ih fun y hy => hslots y (List.mem_append_left _ hy)
    obtain ⟨slot, hx⟩ := Option.isSome_iff_exists.mp
      (hslots x (List.mem_append_right _ (List.mem_singleton_self x)))
    obtain ⟨hadd, hc'⟩ := hc.add hx
    refine ⟨h.bump slot, ?_, hc'⟩
    rw [ofLevels] at hlevels ⊢
    rw [List.foldlM_append, hlevels]
    show List.foldlM (LevelHistogram.add A) h [x] = _
    rw [List.foldlM_cons, hadd]
    rfl

/-- A histogram is determined by how many levels fall in each slot. -/
theorem Counts.unique {levels' : List D} {h' : LevelHistogram D} (hc : Counts A baseDb levels h)
    (hc' : Counts A baseDb levels' h')
    (hslots : ∀ slot, slotCount A baseDb levels slot = slotCount A baseDb levels' slot)
    (hlength : levels.length = levels'.length) : h = h' := by
  have hcounter : ∀ slot, h.counter slot = h'.counter slot := by
    intro slot
    rw [← UInt32.toNat_inj, hc.counter, hc'.counter, hslots]
  obtain ⟨base, counts, below, above, total⟩ := h
  obtain ⟨base', counts', below', above', total'⟩ := h'
  have hbins : counts = counts' := by
    refine Vector.ext fun i hi => ?_
    exact hcounter (.bin ⟨i, hi⟩)
  obtain rfl : base = base' := hc.baseDb_eq.trans hc'.baseDb_eq.symm
  obtain rfl : below = below' := hcounter .below
  obtain rfl : above = above' := hcounter .above
  obtain rfl : total = total' := by
    rw [show total = _ from hc.total, show total' = _ from hc'.total, hlength]
  rw [hbins]

/-- The counts of two histograms on one base. -/
theorem Counts.merge {ys : List D} {other : LevelHistogram D} (heq : A.eq baseDb baseDb = true)
    (hc : Counts A baseDb levels h) (hother : Counts A baseDb ys other) :
    ∃ t, LevelHistogram.merge A h other = .ok t ∧ Counts A baseDb (levels ++ ys) t := by
  rw [LevelHistogram.merge, hc.baseDb_eq, hother.baseDb_eq, if_neg (by simp [heq])]
  refine ⟨_, rfl, ?_⟩
  have hsum : ∀ slot, (addSaturating (h.counter slot) (other.counter slot).toUInt64).toNat =
      min (slotCount A baseDb (levels ++ ys) slot) kCounterMax := by
    intro slot
    have hlt := (other.counter slot).toNat_lt
    rw [toNat_addSaturating _ (by rw [UInt32.toNat_toUInt64]; exact hlt), UInt32.toNat_toUInt64,
      hc.counter, hother.counter, min_add_min, slotCount, slotCount, slotCount,
      List.countP_append]
  refine { baseDb_eq := rfl, counter := fun slot => ?_, total := ?_ }
  · rw [← hsum slot]
    cases slot with
    | below => rfl
    | above => rfl
    | bin i =>
      show ((Vector.zipWith (fun a b => addSaturating a b.toUInt64) h.counts other.counts).get
        i).toNat = _
      rw [get_eq_getElem, Vector.getElem_zipWith]
      rfl
  · show h.total + other.total = _
    rw [hc.total, hother.total, List.length_append, UInt64.ofNat_add]

end LevelHistogram

end Counts

/-! ### Merging -/

open LevelHistogram

theorem isSome_slotOf_binary64 {baseDb : Binary64Datum} (hbase : baseDb.isNaN = false)
    (levelDb : Binary64Datum) : (slotOf .binary64 baseDb levelDb).isSome := by
  obtain ⟨zero, hzero, hzeroValue⟩ := Binary64Datum.ofRat_natCast (n := 0) (by norm_num)
  obtain ⟨bound, hbound, hboundValue⟩ := Binary64Datum.ofRat_natCast (n := kBinCount) (by
    norm_num [kBinCount])
  obtain ⟨width, hwidth, hwidthValue⟩ := Binary64Datum.ofRat_ne_zero (q := 1 / 10)
    (by norm_num) (by norm_num)
  rw [slotOf]
  dsimp only
  split_ifs with hfinite hlow hhigh hpos
  · rfl
  · rfl
  · rfl
  · have hsub := Binary64Datum.sub_isNaN hfinite hbase
    have hdiv := Binary64Datum.div_isNaN hsub hwidthValue
    have hfloor := Binary64Datum.floor_isNaN hdiv
    refine absurd (Binary64Datum.toNat_lt (by exact_mod_cast hzeroValue) hboundValue hfloor ?_ ?_)
      (by rw [← hwidth]; exact hpos)
    · rw [← hwidth, ← hzero]
      exact Bool.eq_false_iff.mpr hlow
    · rw [← hwidth, ← hbound]
      exact Bool.eq_false_iff.mpr hhigh
  · rfl
  · rfl

/-- **Headline.** On a base that is a number, merging the histogram of one list of levels into that
of another gives the histogram of the two lists, whatever the levels and however many; and the
order of the levels does not count. -/
theorem merge_ofLevels {baseDb : Binary64Datum} (hbase : baseDb.isNaN = false)
    (xs ys : List Binary64Datum) :
    ∃ hx hy hxy, ofLevels .binary64 baseDb xs = .ok hx ∧ ofLevels .binary64 baseDb ys = .ok hy ∧
      ofLevels .binary64 baseDb (xs ++ ys) = .ok hxy ∧ merge .binary64 hx hy = .ok hxy ∧
      ∀ zs, zs.Perm (xs ++ ys) → ofLevels .binary64 baseDb zs = .ok hxy := by
  have hslots : ∀ levels : List Binary64Datum, ∀ x ∈ levels,
      (slotOf .binary64 baseDb x).isSome := fun _ x _ => isSome_slotOf_binary64 hbase x
  obtain ⟨hx, hlevels, hc⟩ := exists_counts xs (hslots xs)
  obtain ⟨hy, hlevels', hc'⟩ := exists_counts ys (hslots ys)
  obtain ⟨hxy, hboth, hcBoth⟩ := exists_counts (xs ++ ys) (hslots (xs ++ ys))
  obtain ⟨t, hmerge, ht⟩ := hc.merge ((Binary64Datum.eq_self_iff baseDb).mpr hbase) hc'
  obtain rfl := ht.unique hcBoth (fun _ => rfl) rfl
  refine ⟨hx, hy, t, hlevels, hlevels', hboth, hmerge, fun zs hperm => ?_⟩
  obtain ⟨hz, hlevelsZ, hcZ⟩ := exists_counts zs (hslots zs)
  rw [hlevelsZ, hcZ.unique hcBoth (fun slot => hperm.countP_eq _) hperm.length_eq]

/-- A level that is not a number and one above everything, merged with none. -/
theorem merge_ofLevels_outside : ∃ hx hxy,
    ofLevels .binary64 (.ofRat false 0) [.notANumber false, .infinite false] = .ok hx ∧
      merge .binary64 hx (make (.ofRat false 0)) = .ok hxy ∧
      ofLevels .binary64 (.ofRat false 0) [.infinite false, .notANumber false] = .ok hxy := by
  obtain ⟨hx, hy, hxy, hlevels, hnone, -, hmerge, hperm⟩ := merge_ofLevels
    (Binary64Datum.ofRat_isNaN false 0) [.notANumber false, .infinite false] []
  obtain rfl := Except.ok.inj hnone
  exact ⟨hx, hxy, hlevels, hmerge, hperm _ (List.Perm.swap _ _ _)⟩

/-- A histogram on a base that is not a number is not merged with itself, for the base is not equal
to itself. -/
theorem merge_ofLevels_notANumber : ¬∀ (baseDb : Binary64Datum) (xs ys : List Binary64Datum),
    ∃ hx hy hxy, ofLevels .binary64 baseDb xs = .ok hx ∧ ofLevels .binary64 baseDb ys = .ok hy ∧
      ofLevels .binary64 baseDb (xs ++ ys) = .ok hxy ∧ merge .binary64 hx hy = .ok hxy := by
  intro h
  obtain ⟨hx, hy, hxy, hlevels, hlevels', -, hmerge⟩ := h (.notANumber false) [] []
  obtain rfl := Except.ok.inj hlevels
  obtain rfl := Except.ok.inj hlevels'
  have hrefused : merge .binary64 (make (.notANumber false)) (make (.notANumber false)) =
      .error .basesDiffer := if_pos (by decide)
  cases hrefused.symm.trans hmerge

end Meter

end RtaTool
