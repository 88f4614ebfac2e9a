import Mathlib.Algebra.Field.Defs
import Mathlib.Data.List.GetD
import Mathlib.Data.List.Induction
import Mathlib.Data.List.TakeWhile
import Mathlib.Data.Rat.Defs

/-!
# Bridged columns

`bridgeGaps` of `TraceDecimator.h`, which fills the columns that no bin landed in while it scans
them. The two ends of a gap are columns with data, and the index only moves on, so that every
filled column is the interpolation of measured ones: the loop keeps the columns from the index on
as they were, and those before it as they are meant to be (`BridgedBelow`).

## Main definitions

* `ColumnExtent`, `fillGap`, `bridgeGaps`
* `InGap`, `Bridged` -- what a column is meant to be, in terms of the list that was given

## Main results

* `bridgeFrom_bridged` -- the loop does it
* `bridgeGaps_spec` -- **Headline.** What is drawn in every column, and that twice is as once
-/

namespace RtaTool

namespace View

variable {K : Type*} [Field K]

/-! ### `TraceDecimator.h` -/

/-- `ColumnExtent`. -/
structure ColumnExtent (K : Type*) [Zero K] where
  minValue : K := 0
  maxValue : K := 0
  hasData : Bool := false

/-- `columns[i]`. -/
def columnAt (columns : List (ColumnExtent K)) (i : ℕ) : ColumnExtent K := columns.getD i {}

/-- The column a fraction `t` of the way from one to the other. -/
def interpolated (before after : ColumnExtent K) (t : K) : ColumnExtent K where
  minValue := before.minValue + t * (after.minValue - before.minValue)
  maxValue := before.maxValue + t * (after.maxValue - before.maxValue)
  hasData := true

/-- Where the run of empty columns that begins at `i` ends. -/
def gapEndFrom (columns : List (ColumnExtent K)) (i : ℕ) : ℕ :=
  i + ((columns.drop i).takeWhile fun c => !c.hasData).length

/-- One turn of the loop that fills a gap. -/
def fillColumn (gapStart gapEnd : ℕ) (columns : List (ColumnExtent K)) (j : ℕ) :
    List (ColumnExtent K) :=
  let t : K := (j + 1 : ℕ) / (gapEnd - gapStart + 1 : ℕ)
  columns.set (gapStart + j)
    (interpolated (columnAt columns (gapStart - 1)) (columnAt columns gapEnd) t)

/-- The loop that fills a gap. -/
def fillGap (gapStart gapEnd : ℕ) (columns : List (ColumnExtent K)) : List (ColumnExtent K) :=
  (List.range (gapEnd - gapStart)).foldl (fillColumn gapStart gapEnd) columns

@[simp] theorem length_foldl_fillColumn (gapStart gapEnd : ℕ) (js : List ℕ)
    (columns : List (ColumnExtent K)) :
    (js.foldl (fillColumn gapStart gapEnd) columns).length = columns.length := by
  induction js generalizing columns with
  | nil => rfl
  | cons j js ih => rw [List.foldl_cons, ih, fillColumn, List.length_set]

@[simp] theorem length_fillGap (gapStart gapEnd : ℕ) (columns : List (ColumnExtent K)) :
    (fillGap gapStart gapEnd columns).length = columns.length :=
  length_foldl_fillColumn ..

variable {columns : List (ColumnExtent K)} {i : ℕ}

theorem gapEndFrom_le (hi : i ≤ columns.length) :
    gapEndFrom columns i ≤ columns.length := by
  have h := (List.takeWhile_prefix (p := fun c : ColumnExtent K => !c.hasData)
    (l := columns.drop i)).length_le
  rw [List.length_drop] at h
  rw [gapEndFrom]
  omega

theorem lt_gapEndFrom (hi : i < columns.length)
    (hdata : (columnAt columns i).hasData = false) : i < gapEndFrom columns i := by
  rw [columnAt, List.getD_eq_getElem _ _ hi] at hdata
  rw [gapEndFrom, List.drop_eq_getElem_cons hi, List.takeWhile_cons_of_pos (by rw [hdata]; rfl),
    List.length_cons]
  omega

/-- The loop of `bridgeGaps`. -/
def bridgeFrom (columns : List (ColumnExtent K)) (i : ℕ) : List (ColumnExtent K) :=
  if hi : i < columns.length then
    if hdata : (columnAt columns i).hasData then bridgeFrom columns (i + 1)
    else
      let gapEnd := gapEndFrom columns i
      if i = 0 ∨ gapEnd = columns.length then bridgeFrom columns gapEnd
      else bridgeFrom (fillGap i gapEnd columns) gapEnd
  else columns
termination_by columns.length - i
decreasing_by
  · omega
  · have := lt_gapEndFrom hi (eq_false_of_ne_true hdata)
    omega
  · have := lt_gapEndFrom hi (eq_false_of_ne_true hdata)
    rw [length_fillGap]
    omega

/-- `bridgeGaps(columns)`. -/
def bridgeGaps (columns : List (ColumnExtent K)) : List (ColumnExtent K) := bridgeFrom columns 0

/-! ### What a column is meant to be -/

/-- Two measured columns, next to each other but for empty ones, and one of those. -/
structure InGap (columns : List (ColumnExtent K)) (left k right : ℕ) : Prop where
  left_lt : left < k
  lt_right : k < right
  right_lt : right < columns.length
  left_data : (columnAt columns left).hasData = true
  right_data : (columnAt columns right).hasData = true
  between : ∀ j, left < j → j < right → (columnAt columns j).hasData = false

/-- A column is the measured one; or it is in a gap, and the interpolation of its ends; or nothing
was measured on one side of it, and it is left as it is. -/
inductive Bridged (columns : List (ColumnExtent K)) (k : ℕ) : ColumnExtent K → Prop
  | measured (h : (columnAt columns k).hasData = true) : Bridged columns k (columnAt columns k)
  | filled {left right : ℕ} (h : InGap columns left k right) :
      Bridged columns k (interpolated (columnAt columns left) (columnAt columns right)
        ((k - left : ℕ) / (right - left : ℕ)))
  | leading (h : ∀ j ≤ k, (columnAt columns j).hasData = false) :
      Bridged columns k (columnAt columns k)
  | trailing (h : ∀ j, k ≤ j → (columnAt columns j).hasData = false) :
      Bridged columns k (columnAt columns k)

/-! ### A gap -/

theorem columnAt_set (columns : List (ColumnExtent K)) (i : ℕ) (c : ColumnExtent K) (k : ℕ) :
    columnAt (columns.set i c) k =
      if k = i ∧ i < columns.length then c else columnAt columns k := by
  rw [columnAt, columnAt, List.getD_eq_getElem?_getD, List.getD_eq_getElem?_getD, List.getElem?_set]
  by_cases hk : i = k
  · by_cases hi : i < columns.length
    · rw [if_pos hk, if_pos hi, if_pos ⟨hk.symm, hi⟩]
      rfl
    · rw [if_pos hk, if_neg hi, if_neg (fun h => hi h.2), List.getElem?_eq_none (by omega)]
  · rw [if_neg hk, if_neg (fun h => hk h.1.symm)]

/-- The ends of a gap are not written to, so every column in it is read off them. -/
theorem columnAt_fillGap {gapStart gapEnd : ℕ}
    (hstart : 0 < gapStart) (hend : gapEnd < columns.length) {m : ℕ} (hm : m ≤ gapEnd - gapStart)
    (k : ℕ) :
    columnAt ((List.range m).foldl (fillColumn gapStart gapEnd) columns) k =
      if gapStart ≤ k ∧ k < gapStart + m then
        interpolated (columnAt columns (gapStart - 1)) (columnAt columns gapEnd)
          ((k - (gapStart - 1) : ℕ) / (gapEnd - (gapStart - 1) : ℕ))
      else columnAt columns k := by
  induction m generalizing k with
  | zero =>
    rw [if_neg (by omega)]
    rfl
  | succ m ih =>
    have hbefore := ih (by omega) (gapStart - 1)
    have hafter := ih (by omega) gapEnd
    rw [if_neg (by omega)] at hbefore hafter
    rw [List.range_succ, List.foldl_append, List.foldl_cons, List.foldl_nil, fillColumn,
      columnAt_set, length_foldl_fillColumn, hbefore, hafter]
    by_cases hk : k = gapStart + m
    · have hstep : m + 1 = k - (gapStart - 1) := by omega
      have hspan : gapEnd - gapStart + 1 = gapEnd - (gapStart - 1) := by omega
      rw [if_pos ⟨hk, by omega⟩, if_pos (by omega), hstep, hspan]
    · rw [if_neg (by omega), ih (by omega) k]
      refine if_congr ?_ rfl rfl
      omega

theorem gap_split (hi : i ≤ columns.length) :
    ∃ run rest, columns.drop i = run ++ rest ∧ run.length = gapEndFrom columns i - i ∧
      (∀ c ∈ run, c.hasData = false) ∧ ∀ c, rest.head? = some c → c.hasData = true := by
  refine ⟨_, _, (List.takeWhile_append_dropWhile (p := fun c : ColumnExtent K => !c.hasData)).symm,
    ?_, ?_, ?_⟩
  · rw [gapEndFrom, Nat.add_sub_cancel_left]
  · intro c hc
    simpa using List.mem_takeWhile_imp hc
  · intro c hc
    have hnot := List.head?_dropWhile_not (fun c : ColumnExtent K => !c.hasData) (columns.drop i)
    rw [hc] at hnot
    simpa using hnot

theorem columnAt_add_drop (columns : List (ColumnExtent K)) (i j : ℕ) :
    columnAt columns (i + j) = columnAt (columns.drop i) j := by
  rw [columnAt, columnAt, List.getD_eq_getElem?_getD, List.getD_eq_getElem?_getD,
    List.getElem?_drop]

theorem gap_empty {i j : ℕ} (hi : i ≤ columns.length)
    (hij : i ≤ j) (hj : j < gapEndFrom columns i) : (columnAt columns j).hasData = false := by
  obtain ⟨run, rest, hsplit, hrun, hempty, -⟩ := gap_split hi
  have hlt : j - i < run.length := by omega
  rw [← Nat.add_sub_cancel' hij, columnAt_add_drop, hsplit, columnAt, List.getD_append _ _ _ _ hlt,
    List.getD_eq_getElem _ _ hlt]
  exact hempty _ (List.getElem_mem hlt)

theorem gap_ends (hi : i ≤ columns.length) (hend : gapEndFrom columns i ≠ columns.length) :
    (columnAt columns (gapEndFrom columns i)).hasData = true := by
  obtain ⟨run, rest, hsplit, hrun, -, hdata⟩ := gap_split hi
  have hle : i ≤ gapEndFrom columns i := Nat.le_add_right _ _
  have hlt := (gapEndFrom_le hi).lt_of_ne hend
  have hlength := congrArg List.length hsplit
  rw [List.length_drop, List.length_append, hrun] at hlength
  obtain ⟨c, rest', rfl⟩ := List.exists_cons_of_length_pos (show 0 < rest.length by omega)
  rw [← Nat.add_sub_cancel' hle, columnAt_add_drop, hsplit, columnAt,
    List.getD_append_right _ _ _ _ hrun.le, hrun, Nat.sub_self]
  exact hdata c rfl

/-! ### The loop -/

/-- The state of the scan at the index `i`. -/
structure BridgedBelow (given columns : List (ColumnExtent K)) (i : ℕ) : Prop where
  length_eq : columns.length = given.length
  le_length : i ≤ given.length
  above : ∀ k, i ≤ k → columnAt columns k = columnAt given k
  below : ∀ k, k < i → Bridged given k (columnAt columns k)
  edge : i = 0 ∨ i = given.length ∨ (columnAt given (i - 1)).hasData = true ∨
    (columnAt given i).hasData = true

variable {given columns : List (ColumnExtent K)} {i : ℕ}

variable {c : ColumnExtent K}

theorem Bridged.eq_of_data {k : ℕ} (h : Bridged given k c)
    (hdata : (columnAt given k).hasData = true) : c = columnAt given k := by
  cases h with
  | measured => rfl
  | filled h => exact absurd (h.between k h.left_lt h.lt_right) (by simp [hdata])
  | leading h => rfl
  | trailing h => rfl

section

variable (h : BridgedBelow given columns i)

include h

theorem BridgedBelow.measured (hi : i < columns.length)
    (hdata : (columnAt columns i).hasData = true) : BridgedBelow given columns (i + 1) where
  length_eq := h.length_eq
  le_length := h.length_eq ▸ hi
  above k hk := h.above k (by omega)
  below k hk := by
    obtain hlt | rfl := Nat.lt_succ_iff_lt_or_eq.mp hk
    · exact h.below k hlt
    · rw [h.above k le_rfl] at hdata ⊢
      exact .measured hdata
  edge := by
    rw [h.above i le_rfl] at hdata
    exact .inr (.inr (.inl hdata))

theorem BridgedBelow.gap {j : ℕ} (hij : i ≤ j)
    (hj : j < gapEndFrom columns i) : (columnAt given j).hasData = false := by
  rw [← h.above j hij]
  exact gap_empty (h.length_eq ▸ h.le_length) hij hj

theorem BridgedBelow.edge_gap (hend : i = 0 ∨ gapEndFrom columns i = columns.length) :
    BridgedBelow given columns (gapEndFrom columns i) where
  length_eq := h.length_eq
  le_length := h.length_eq ▸ gapEndFrom_le (h.length_eq ▸ h.le_length)
  above k hk := h.above k (le_trans (Nat.le_add_right _ _) hk)
  below k hk := by
    obtain hlt | hge := Nat.lt_or_ge k i
    · exact h.below k hlt
    · rw [h.above k hge]
      obtain rfl | hend := hend
      · exact .leading fun j hj => h.gap (Nat.zero_le j) (by omega)
      · refine .trailing fun j hj => ?_
        obtain hinside | houtside := Nat.lt_or_ge j columns.length
        · exact h.gap (by omega) (by omega)
        · rw [columnAt, List.getD_eq_default _ _ (h.length_eq ▸ houtside)]
  edge := by
    by_cases hlast : gapEndFrom columns i = columns.length
    · exact .inr (.inl (hlast.trans h.length_eq))
    · have hdata := gap_ends (h.length_eq ▸ h.le_length) hlast
      rw [h.above (gapEndFrom columns i) (Nat.le_add_right _ _)] at hdata
      exact .inr (.inr (.inr hdata))

/-- A gap between two measured columns is filled. -/
theorem BridgedBelow.fill (hi : i < columns.length)
    (hdata : (columnAt columns i).hasData = false) (hstart : i ≠ 0)
    (hend : gapEndFrom columns i ≠ columns.length) :
    BridgedBelow given (fillGap i (gapEndFrom columns i) columns) (gapEndFrom columns i) := by
  have hle : gapEndFrom columns i ≤ columns.length := gapEndFrom_le hi.le
  have hlt := lt_gapEndFrom hi hdata
  have hright := gap_ends hi.le hend
  rw [h.above _ hlt.le] at hright
  have hleft : (columnAt given (i - 1)).hasData = true := by
    obtain h0 | hlen | hleft | hhere := h.edge
    · exact absurd h0 hstart
    · exact absurd (h.length_eq.trans hlen.symm) hi.ne'
    · exact hleft
    · rw [h.above i le_rfl, hhere] at hdata
      cases hdata
  have hbefore : columnAt columns (i - 1) = columnAt given (i - 1) :=
    (h.below (i - 1) (by omega)).eq_of_data hleft
  have hafter := h.above (gapEndFrom columns i) hlt.le
  have hfill := fun k => @columnAt_fillGap K _ columns i (gapEndFrom columns i) (by omega)
    (by omega) (gapEndFrom columns i - i) le_rfl k
  refine ⟨(length_fillGap ..).trans h.length_eq, h.length_eq ▸ hle, fun k hk => ?_,
    fun k hk => ?_, .inr (.inr (.inr hright))⟩
  · rw [fillGap, hfill, if_neg (by omega)]
    exact h.above k (by omega)
  · rw [fillGap, hfill]
    obtain hbelow | hinside := Nat.lt_or_ge k i
    · rw [if_neg (by omega)]
      exact h.below k hbelow
    · rw [if_pos (by omega), hbefore, hafter]
      refine .filled ⟨by omega, hk, h.length_eq ▸ hle.lt_of_ne hend, hleft, hright, ?_⟩
      intro j hj hjend
      exact h.gap (by omega) hjend

/-- The loop leaves every column as it is meant to be. -/
theorem bridgeFrom_bridged :
    BridgedBelow given (bridgeFrom columns i) given.length := by
  induction columns, i using bridgeFrom.induct with
  | case1 columns i hi hdata ih =>
    rw [bridgeFrom, dif_pos hi, dif_pos hdata]
    exact ih (h.measured hi hdata)
  | case2 columns i hi hdata gapEnd hend ih =>
    rw [bridgeFrom, dif_pos hi, dif_neg hdata]
    dsimp only
    rw [if_pos hend]
    exact ih (h.edge_gap hend)
  | case3 columns i hi hdata gapEnd hend ih =>
    rw [bridgeFrom, dif_pos hi, dif_neg hdata]
    dsimp only
    rw [if_neg hend]
    rw [not_or] at hend
    exact ih (h.fill hi (eq_false_of_ne_true hdata) hend.1 hend.2)
  | case4 columns i hi =>
    rw [bridgeFrom, dif_neg hi]
    have hlast : i = given.length := le_antisymm h.le_length (h.length_eq ▸ not_lt.mp hi)
    exact hlast ▸ h

end

theorem bridgeGaps_bridged (columns : List (ColumnExtent K)) :
    BridgedBelow columns (bridgeGaps columns) columns.length :=
  bridgeFrom_bridged ⟨rfl, Nat.zero_le _, fun _ _ => rfl, fun _ hk => absurd hk (Nat.not_lt_zero _),
    .inl rfl⟩

/-! ### What is drawn -/

/-- Nothing was measured on one side of a column, nor at it. -/
def EmptySide (columns : List (ColumnExtent K)) (k : ℕ) : Prop :=
  (∀ j ≤ k, (columnAt columns j).hasData = false) ∨
    ∀ j, k ≤ j → (columnAt columns j).hasData = false

theorem InGap.not_emptySide {left k right : ℕ} (h : InGap given left k right) :
    ¬ EmptySide given k := by
  rintro (hside | hside)
  · exact absurd (hside left h.left_lt.le) (by simp [h.left_data])
  · exact absurd (hside right h.lt_right.le) (by simp [h.right_data])

/-- A column is in at most one gap. -/
theorem InGap.unique {left k right left' right' : ℕ} (h : InGap given left k right)
    (h' : InGap given left' k right') : left = left' ∧ right = right' := by
  have hno : ∀ j, (columnAt given j).hasData = true →
      ¬ (left < j ∧ j < right) ∧ ¬ (left' < j ∧ j < right') := by
    intro j hj
    constructor
    · exact fun hlt => absurd (h.between j hlt.1 hlt.2) (by simp [hj])
    · exact fun hlt => absurd (h'.between j hlt.1 hlt.2) (by simp [hj])
  have hleft := (hno left h.left_data).2
  have hleft' := (hno left' h'.left_data).1
  have hright := (hno right h.right_data).2
  have hright' := (hno right' h'.right_data).1
  have h1 := h.left_lt
  have h2 := h.lt_right
  have h3 := h'.left_lt
  have h4 := h'.lt_right
  omega

theorem Bridged.eq_of_emptySide {k : ℕ} (h : Bridged given k c)
    (hside : EmptySide given k) : c = columnAt given k := by
  cases h with
  | measured => rfl
  | filled h => exact absurd hside h.not_emptySide
  | leading => rfl
  | trailing => rfl

theorem Bridged.eq_of_gap {left k right : ℕ} (h : Bridged given k c)
    (hgap : InGap given left k right) :
    c = interpolated (columnAt given left) (columnAt given right)
      ((k - left : ℕ) / (right - left : ℕ)) := by
  cases h with
  | measured h => exact absurd (hgap.between k hgap.left_lt hgap.lt_right) (by simp [h])
  | filled h =>
    obtain ⟨rfl, rfl⟩ := h.unique hgap
    rfl
  | leading h => exact absurd (.inl h) hgap.not_emptySide
  | trailing h => exact absurd (.inr h) hgap.not_emptySide

/-- A column without data is in a gap or has an empty side, and then stays without. -/
theorem Bridged.emptySide {k : ℕ} (h : Bridged given k c)
    (hc : c.hasData = false) : EmptySide given k := by
  cases h with
  | measured h => exact absurd h (by simp [hc])
  | filled h => cases hc
  | leading h => exact .inl h
  | trailing h => exact .inr h

theorem bridgeGaps_bridgeGaps (columns : List (ColumnExtent K)) :
    bridgeGaps (bridgeGaps columns) = bridgeGaps columns := by
  have honce := bridgeGaps_bridged columns
  have htwice := bridgeGaps_bridged (bridgeGaps columns)
  -- a side that is empty stays empty
  have hside : ∀ k, EmptySide columns k → EmptySide (bridgeGaps columns) k := by
    have hkeep : ∀ j, EmptySide columns j → (columnAt columns j).hasData = false →
        (columnAt (bridgeGaps columns) j).hasData = false := by
      intro j hj hempty
      obtain hlt | hge := Nat.lt_or_ge j columns.length
      · rw [(honce.below j hlt).eq_of_emptySide hj]
        exact hempty
      · rw [columnAt, List.getD_eq_default _ _ (honce.length_eq ▸ hge)]
    rintro k (hleft | hright)
    · exact .inl fun j hj => hkeep j (.inl fun l hl => hleft l (hl.trans hj)) (hleft j hj)
    · exact .inr fun j hj => hkeep j (.inr fun l hl => hright l (hj.trans hl)) (hright j hj)
  refine List.ext_getElem htwice.length_eq fun k hk hk' => ?_
  have hcolumn : columnAt (bridgeGaps (bridgeGaps columns)) k =
      columnAt (bridgeGaps columns) k := by
    have hagain := htwice.below k hk'
    cases hdata : (columnAt (bridgeGaps columns) k).hasData with
    | true => exact hagain.eq_of_data hdata
    | false =>
      have hgiven := (honce.below k (honce.length_eq ▸ hk')).emptySide hdata
      exact hagain.eq_of_emptySide (hside k hgiven)
  rw [columnAt, columnAt, List.getD_eq_getElem _ _ hk, List.getD_eq_getElem _ _ hk'] at hcolumn
  exact hcolumn

/-- **Headline.** A column with data is unchanged; so is one with an empty side, which is the
leading and the trailing run; every other one is in a gap, and is the interpolation of its ends in
the list that was given; and twice is as once. -/
theorem bridgeGaps_spec (columns : List (ColumnExtent K)) :
    (bridgeGaps columns).length = columns.length ∧
    (∀ k < columns.length, (columnAt columns k).hasData = true →
      columnAt (bridgeGaps columns) k = columnAt columns k) ∧
    (∀ k < columns.length, EmptySide columns k →
      columnAt (bridgeGaps columns) k = columnAt columns k) ∧
    (∀ k < columns.length, (columnAt columns k).hasData = false → ¬ EmptySide columns k →
      ∃ left right, InGap columns left k right) ∧
    (∀ left k right, InGap columns left k right →
      columnAt (bridgeGaps columns) k =
        interpolated (columnAt columns left) (columnAt columns right)
          ((k - left : ℕ) / (right - left : ℕ))) ∧
    bridgeGaps (bridgeGaps columns) = bridgeGaps columns := by
  have honce := bridgeGaps_bridged columns
  refine ⟨honce.length_eq, fun k hk => (honce.below k hk).eq_of_data,
    fun k hk => (honce.below k hk).eq_of_emptySide, ?_, fun left k right hgap => ?_,
    bridgeGaps_bridgeGaps columns⟩
  · intro k hk hdata hside
    have hbridged := honce.below k hk
    generalize columnAt (bridgeGaps columns) k = c at hbridged
    cases hbridged with
    | measured h => exact absurd h (by simp [hdata])
    | filled h => exact ⟨_, _, h⟩
    | leading h => exact absurd (.inl h) hside
    | trailing h => exact absurd (.inr h) hside
  · exact (honce.below k (hgap.lt_right.trans hgap.right_lt)).eq_of_gap hgap

end View

end RtaTool
