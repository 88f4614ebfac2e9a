import RtaTool.Lib.CircleArc
import RtaTool.Lib.Numerals

/-!
# Phase traces

`PhaseDecimator.h`. The phases of the bins are unwrapped along the bins; each pixel column has the
extent of the unwrapped phases of its bins; and the extents are brought back into a pane of 360
degrees, in two pieces where they pass its edge. The arithmetic is exact.

## Main definitions

* `wrapTo180`, `unwrapAlongBins`, `decimatePhaseToColumns`, `wrapForDrawing`
* `DrawnPhaseColumn.pieces` -- what is drawn of a column
* `PhaseColumn.Spans` -- the extent of a set of phases

## Main results

* `decimatePhaseToColumns_spans` -- the extent of a column is that of its bins
* `phaseTrace_exact` -- **Headline.** What is drawn is the extent, modulo 360
-/

namespace RtaTool

/-! ### The source -/

/-- `PhaseColumn`. -/
structure PhaseColumn (K : Type*) where
  minDeg : K
  maxDeg : K
  hasData : Bool
  deriving DecidableEq

/-- `DrawnPhaseColumn`. -/
structure DrawnPhaseColumn (K : Type*) where
  minDeg : K
  maxDeg : K
  hasData : Bool
  straddlesWrap : Bool
  fullBand : Bool
  penLift : Bool
  deriving DecidableEq

section Source

variable {K : Type*} [Field K] [LinearOrder K]

/-- A column as it is made. -/
def PhaseColumn.empty : PhaseColumn K where
  minDeg := 0
  maxDeg := 0
  hasData := false

/-- A column as it is made. -/
def DrawnPhaseColumn.empty : DrawnPhaseColumn K where
  minDeg := 0
  maxDeg := 0
  hasData := false
  straddlesWrap := false
  fullBand := false
  penLift := false

/-- The body of the loop of `decimatePhaseToColumns`, for the bin's own column. -/
def PhaseColumn.add (c : PhaseColumn K) (v : K) : PhaseColumn K :=
  if ¬ c.hasData then { minDeg := v, maxDeg := v, hasData := true }
  else
    { c with
      minDeg := if v < c.minDeg then v else c.minDeg
      maxDeg := if v > c.maxDeg then v else c.maxDeg }

/-- The body of the loop of `decimatePhaseToColumns`. -/
def addBin (columnCount : ℤ) (out : List (PhaseColumn K)) (bin : K × ℤ) : List (PhaseColumn K) :=
  if bin.2 < 0 ∨ bin.2 ≥ columnCount then out else out.modify bin.2.toNat (·.add bin.1)

variable [FloorRing K]

/-- `std::fmod`: the quotient is truncated. -/
def fmod (x y : K) : K := x - (if 0 ≤ x / y then ⌊x / y⌋ else ⌈x / y⌉ : ℤ) * y

/-- `std::round`, ties away from zero. -/
def roundAway (x : K) : ℤ := if 0 ≤ x then ⌊x + 1 / 2⌋ else ⌈x - 1 / 2⌉

/-- `wrapTo180(deg)`. -/
def wrapTo180 (deg : K) : K :=
  let w := fmod (deg + 180) 360
  let w := if w ≤ 0 then w + 360 else w
  w - 180

/-- The loop of `unwrapAlongBins`, after a bin whose phase is `previous` and was unwrapped to
`out`. -/
def unwrapFrom (previous out : K) : List K → List K
  | [] => []
  | deg :: rest =>
    let delta := deg - previous
    let delta := delta - 360 * roundAway (delta / 360)
    (out + delta) :: unwrapFrom deg (out + delta) rest

/-- `unwrapAlongBins(wrappedDeg)`. -/
def unwrapAlongBins : List K → List K
  | [] => []
  | deg :: rest => deg :: unwrapFrom deg deg rest

/-- `decimatePhaseToColumns(wrappedDeg, columnForBin, columnCount)`. -/
def decimatePhaseToColumns (wrappedDeg : List K) (columnForBin : List ℤ) (columnCount : ℤ) :
    List (PhaseColumn K) :=
  if columnCount ≤ 0 ∨ wrappedDeg = [] ∨ wrappedDeg.length ≠ columnForBin.length then []
  else
    ((unwrapAlongBins wrappedDeg).zip columnForBin).foldl (addBin columnCount)
      (List.replicate columnCount.toNat .empty)

/-- The loop of `wrapForDrawing`. `previous` is `previousMid` where `havePrevious` is set. -/
def wrapFrom (havePrevious : Bool) (previousMid : K) : List (PhaseColumn K) →
    List (DrawnPhaseColumn K)
  | [] => []
  | c :: columns =>
    if ¬ c.hasData then .empty :: wrapFrom false previousMid columns
    else if c.maxDeg - c.minDeg ≥ 360 then
      { minDeg := -180
        maxDeg := 180
        hasData := true
        straddlesWrap := false
        fullBand := true
        penLift := true } :: wrapFrom false previousMid columns
    else
      let minDeg := wrapTo180 c.minDeg
      let maxDeg := wrapTo180 c.maxDeg
      let straddlesWrap := decide (minDeg > maxDeg)
      let mid := wrapTo180 (1 / 2 * (c.minDeg + c.maxDeg))
      { minDeg := minDeg
        maxDeg := maxDeg
        hasData := true
        straddlesWrap := straddlesWrap
        fullBand := false
        penLift := !havePrevious || straddlesWrap || decide (|mid - previousMid| > 180) } ::
      wrapFrom (!straddlesWrap) mid columns

/-- `wrapForDrawing(columns)`. -/
def wrapForDrawing (columns : List (PhaseColumn K)) : List (DrawnPhaseColumn K) :=
  wrapFrom false 0 columns

end Source

/-! ### What is drawn -/

section Drawn

variable {K : Type*} [Field K] [LinearOrder K]

/-- What `strokePhaseColumns` fills of a column. -/
def DrawnPhaseColumn.pieces (d : DrawnPhaseColumn K) : Set K :=
  if ¬ d.hasData then ∅
  else if d.straddlesWrap then Set.Icc d.minDeg 180 ∪ Set.Icc (-180) d.maxDeg
  else Set.Icc d.minDeg d.maxDeg

/-- The unwrapped extent of a column. -/
def PhaseColumn.extent (c : PhaseColumn K) : Set K :=
  if ¬ c.hasData then ∅ else Set.Icc c.minDeg c.maxDeg

/-- The column has the extent of a set of phases. -/
def PhaseColumn.Spans (c : PhaseColumn K) (phases : Set K) : Prop :=
  if ¬ c.hasData then phases = ∅ else IsLeast phases c.minDeg ∧ IsGreatest phases c.maxDeg

end Drawn

variable {K : Type*} [Field K] [LinearOrder K] [IsStrictOrderedRing K] [FloorRing K]

/-! ### Whole turns -/

/-- The quotient of `std::fmod` is short of the next whole number away from zero. -/
theorem fmod_mem {x y : K} (hy : 0 < y) :
    (0 ≤ x → fmod x y ∈ Set.Ico 0 y) ∧ (x < 0 → fmod x y ∈ Set.Ioc (-y) 0) := by
  have hx : x = x / y * y := (div_mul_cancel₀ x hy.ne').symm
  constructor
  · intro h
    have hq : 0 ≤ x / y := div_nonneg h hy.le
    rw [fmod, if_pos hq]
    constructor
    · have := mul_le_mul_of_nonneg_right (Int.floor_le (x / y)) hy.le
      linarith
    · have := mul_lt_mul_of_pos_right (Int.lt_floor_add_one (x / y)) hy
      linarith
  · intro h
    have hq : ¬ 0 ≤ x / y := not_le.mpr (div_neg_of_neg_of_pos h hy)
    rw [fmod, if_neg hq]
    constructor
    · have := mul_lt_mul_of_pos_right (Int.ceil_lt_add_one (x / y)) hy
      linarith
    · have := mul_le_mul_of_nonneg_right (Int.le_ceil (x / y)) hy.le
      linarith

/-- `wrapTo180` brings a phase between `-180`, which is left out, and `180`. -/
theorem wrapTo180_eq (hp : (0 : K) < 360) (deg : K) : wrapTo180 deg = toIocMod hp (-180) deg := by
  refine ((toIocMod_eq_iff hp).mpr ?_).symm
  have hturn : ∃ z : ℤ, fmod (deg + 180) 360 = deg + 180 - z * 360 := ⟨_, rfl⟩
  obtain ⟨z, hz⟩ := hturn
  obtain ⟨hpos, hneg⟩ := fmod_mem (x := deg + 180) hp
  rw [wrapTo180]
  split_ifs with hw
  · refine ⟨?_, z - 1, ?_⟩
    · have : -360 < fmod (deg + 180) 360 := by
        rcases le_or_gt 0 (deg + 180) with h | h
        · linarith [(hpos h).1]
        · exact (hneg h).1
      constructor <;> linarith
    · rw [hz, zsmul_eq_mul]
      push_cast
      ring
  · refine ⟨?_, z, ?_⟩
    · rw [not_le] at hw
      have : fmod (deg + 180) 360 < 360 := by
        rcases le_or_gt 0 (deg + 180) with h | h
        · exact (hpos h).2
        · linarith [(hneg h).2]
      constructor <;> linarith
    · rw [hz, zsmul_eq_mul]
      ring

/-! ### Unwrapping -/

/-- A phase and its unwrapped value are whole turns apart. -/
def SamePhase (deg v : K) : Prop := ∃ n : ℤ, v = deg + n * 360

omit [IsStrictOrderedRing K] in
theorem unwrapFrom_samePhase {previous out : K} (h : SamePhase previous out) (degs : List K) :
    List.Forall₂ SamePhase degs (unwrapFrom previous out degs) := by
  induction degs generalizing previous out with
  | nil => exact .nil
  | cons deg rest ih =>
    rw [unwrapFrom]
    have hdeg : SamePhase deg
        (out + (deg - previous - 360 * roundAway ((deg - previous) / 360))) := by
      obtain ⟨n, rfl⟩ := h
      refine ⟨n - roundAway ((deg - previous) / 360), ?_⟩
      push_cast
      ring
    exact .cons hdeg (ih hdeg)

omit [IsStrictOrderedRing K] in
theorem unwrapAlongBins_samePhase (degs : List K) :
    List.Forall₂ SamePhase degs (unwrapAlongBins degs) := by
  cases degs with
  | nil => exact .nil
  | cons deg rest =>
    have hdeg : SamePhase deg deg := ⟨0, by simp⟩
    exact .cons hdeg (unwrapFrom_samePhase hdeg rest)

/-! ### The extents -/

omit [IsStrictOrderedRing K] [FloorRing K] in
theorem PhaseColumn.Spans.add {c : PhaseColumn K} {phases : Set K} (h : c.Spans phases) (v : K) :
    (c.add v).Spans (insert v phases) := by
  by_cases hdata : c.hasData
  · rw [Spans, if_neg (not_not.mpr hdata)] at h
    obtain ⟨hleast, hgreatest⟩ := h
    rw [PhaseColumn.add, if_neg (not_not.mpr hdata), Spans, if_neg (not_not.mpr hdata)]
    constructor
    · have := hleast.insert v
      rwa [min_def_lt] at this
    · have := hgreatest.insert v
      rwa [max_comm, max_def_lt] at this
  · rw [Spans, if_pos hdata] at h
    subst h
    rw [PhaseColumn.add, if_pos hdata, Spans, if_neg (by simp), insert_empty_eq]
    exact ⟨isLeast_singleton, isGreatest_singleton⟩

/-- The phases of the bins of a column. -/
def phasesOf (bins : List (K × ℤ)) (column : ℕ) : Set K := {v | (v, (column : ℤ)) ∈ bins}

omit [IsStrictOrderedRing K] [FloorRing K] in
/-- One bin: its column has one more phase, and the others stay. -/
theorem addBin_spans {columnCount : ℤ} {out : List (PhaseColumn K)} {bins : List (K × ℤ)}
    (hlength : out.length = columnCount.toNat)
    (h : ∀ k (c : PhaseColumn K), out[k]? = some c → c.Spans (phasesOf bins k)) (bin : K × ℤ) :
    (addBin columnCount out bin).length = columnCount.toNat ∧
      ∀ k (c : PhaseColumn K), (addBin columnCount out bin)[k]? = some c →
        c.Spans (phasesOf (bins ++ [bin]) k) := by
  obtain ⟨v, column⟩ := bin
  have hsame : ∀ k : ℕ, (k : ℤ) ≠ column →
      phasesOf (bins ++ [(v, column)]) k = phasesOf bins k := by
    intro k hk
    ext x
    simp [phasesOf, hk]
  rw [addBin]
  split_ifs with hout
  · refine ⟨hlength, fun k c hc => ?_⟩
    have hlt := (List.getElem?_eq_some_iff.mp hc).1
    rw [hsame k (by omega)]
    exact h k c hc
  · refine ⟨(List.length_modify _ _ _).trans hlength, fun k c hc => ?_⟩
    rw [List.getElem?_modify] at hc
    obtain ⟨c', hc', rfl⟩ := Option.map_eq_some_iff.mp hc
    by_cases hk : column.toNat = k
    · have hinsert : phasesOf (bins ++ [(v, column)]) k = insert v (phasesOf bins k) := by
        ext x
        simp only [phasesOf, Set.mem_setOf_eq, List.mem_append, List.mem_singleton, Prod.mk.injEq,
          Set.mem_insert_iff]
        have : (k : ℤ) = column := by omega
        tauto
      rw [if_pos hk, hinsert]
      exact (h k c' hc').add v
    · rw [if_neg hk, hsame k (by omega)]
      exact h k c' hc'

omit [IsStrictOrderedRing K] in
/-- **The extent of a column is that of the unwrapped phases of its bins.** -/
theorem decimatePhaseToColumns_spans {wrappedDeg : List K} {columnForBin : List ℤ}
    {columnCount : ℤ} {k : ℕ} {c : PhaseColumn K}
    (h : (decimatePhaseToColumns wrappedDeg columnForBin columnCount)[k]? = some c) :
    c.Spans (phasesOf ((unwrapAlongBins wrappedDeg).zip columnForBin) k) := by
  rw [decimatePhaseToColumns] at h
  split_ifs at h with hrefused
  · cases h
  · have hall : ∀ bins : List (K × ℤ),
        (bins.foldl (addBin columnCount) (List.replicate columnCount.toNat .empty)).length =
          columnCount.toNat ∧
        ∀ k (c : PhaseColumn K), (bins.foldl (addBin columnCount)
          (List.replicate columnCount.toNat .empty))[k]? = some c → c.Spans (phasesOf bins k) := by
      intro bins
      induction bins using List.reverseRecOn with
      | nil =>
        refine ⟨List.length_replicate, fun k c hc => ?_⟩
        rw [List.foldl_nil, List.getElem?_replicate] at hc
        split_ifs at hc
        obtain rfl := Option.some.inj hc
        rw [PhaseColumn.Spans, if_pos (by simp [PhaseColumn.empty])]
        simp [phasesOf]
      | append_singleton bins bin ih =>
        rw [List.foldl_append]
        exact addBin_spans ih.1 ih.2 bin
    exact (hall _).2 k c h

/-! ### The pane -/

/-- How a column is drawn: nothing where there is nothing, and else the same arc, with the pen
lifted at the edge pieces and the full bands. -/
structure DrawnAs (c : PhaseColumn K) (d : DrawnPhaseColumn K) : Prop where
  hasData : d.hasData = c.hasData
  arc : c.minDeg ≤ c.maxDeg → arc 360 d.pieces = arc 360 c.extent
  penLift : d.straddlesWrap ∨ d.fullBand → d.penLift

omit [IsStrictOrderedRing K] [FloorRing K] in
theorem DrawnAs.hole {c : PhaseColumn K} (h : ¬ c.hasData) : DrawnAs c .empty := by
  refine ⟨(Bool.eq_false_of_not_eq_true h).symm, fun _ => ?_, fun h => ?_⟩
  · rw [DrawnPhaseColumn.pieces, PhaseColumn.extent, if_pos h,
      if_pos (show ¬ (DrawnPhaseColumn.empty : DrawnPhaseColumn K).hasData from
        Bool.false_ne_true)]
  · rcases h with h | h <;> cases h

/-- **Column by column.** -/
theorem wrapFrom_drawnAs (havePrevious : Bool) (previousMid : K) (columns : List (PhaseColumn K)) :
    List.Forall₂ DrawnAs columns (wrapFrom havePrevious previousMid columns) := by
  have hp : (0 : K) < 360 := by norm_num
  induction columns generalizing havePrevious previousMid with
  | nil => exact .nil
  | cons c columns ih =>
    rw [wrapFrom]
    by_cases hdata : c.hasData
    · rw [if_neg (not_not.mpr hdata)]
      by_cases hband : c.maxDeg - c.minDeg ≥ 360
      · rw [if_pos hband]
        refine .cons ⟨hdata.symm, fun _ => ?_, fun _ => rfl⟩ (ih _ _)
        have hturn : (360 : K) ≤ 180 - -180 := by norm_num
        rw [DrawnPhaseColumn.pieces, PhaseColumn.extent, if_neg (not_not.mpr hdata),
          if_neg (by simp), if_neg (by simp), arc_Icc_of_le hp hturn, arc_Icc_of_le hp hband]
      · rw [if_neg hband]
        refine .cons ⟨hdata.symm, fun hle => ?_, fun h => ?_⟩ (ih _ _)
        · have hedge : (-180 : K) + 360 = 180 := by norm_num
          rw [PhaseColumn.extent, if_neg (not_not.mpr hdata),
            arc_Icc_eq hp (-180) hle (not_le.mp hband), hedge, DrawnPhaseColumn.pieces,
            if_neg (by simp)]
          simp only [wrapTo180_eq hp, decide_eq_true_eq, gt_iff_lt]
        · have hstraddles : decide (wrapTo180 c.minDeg > wrapTo180 c.maxDeg) = true :=
            h.resolve_right (by simp)
          simp [hstraddles]
    · rw [if_pos hdata]
      exact .cons (.hole hdata) (ih _ _)

/-- Where the pen is lifted between one drawn column and the next. -/
def LiftsAfter (d e : DrawnPhaseColumn K) : Prop :=
  e.hasData → ¬ d.hasData ∨ d.straddlesWrap ∨ d.fullBand → e.penLift

omit [IsStrictOrderedRing K] in
theorem wrapFrom_head {previousMid : K} {columns : List (PhaseColumn K)} {d : DrawnPhaseColumn K}
    (h : (wrapFrom false previousMid columns).head? = some d) (hdata : d.hasData) : d.penLift := by
  cases columns with
  | nil => cases h
  | cons c columns =>
    rw [wrapFrom] at h
    split_ifs at h <;> obtain rfl := Option.some.inj h
    · rfl
    · rfl
    · exact hdata

omit [IsStrictOrderedRing K] in
/-- **Column after column.** -/
theorem wrapFrom_liftsAfter (havePrevious : Bool) (previousMid : K)
    (columns : List (PhaseColumn K)) :
    (wrapFrom havePrevious previousMid columns).IsChain LiftsAfter := by
  induction columns generalizing havePrevious previousMid with
  | nil => exact .nil
  | cons c columns ih =>
    rw [wrapFrom]
    split_ifs with hdata hband
    · exact List.isChain_cons.mpr ⟨fun e he hdata _ => wrapFrom_head he hdata, ih _ _⟩
    · refine List.isChain_cons.mpr ⟨fun e he hdata' h => ?_, ih _ _⟩
      have hstraddles : decide (wrapTo180 c.minDeg > wrapTo180 c.maxDeg) = true := by
        simpa using h
      rw [hstraddles] at he
      exact wrapFrom_head he hdata'
    · exact List.isChain_cons.mpr ⟨fun e he hdata _ => wrapFrom_head he hdata, ih _ _⟩

/-! ### The trace -/

omit [IsStrictOrderedRing K] [FloorRing K] in
theorem PhaseColumn.Spans.mem_extent {c : PhaseColumn K} {phases : Set K} (h : c.Spans phases)
    {v : K} (hv : v ∈ phases) : v ∈ c.extent := by
  rw [Spans] at h
  rw [extent]
  split_ifs at h ⊢ with hdata
  · exact ⟨h.1.2 hv, h.2.2 hv⟩
  · rwa [h] at hv

omit [IsStrictOrderedRing K] [FloorRing K] in
theorem PhaseColumn.Spans.arc_eq {c : PhaseColumn K} {phases : Set K} (h : c.Spans phases)
    {d : DrawnPhaseColumn K} (hd : DrawnAs c d) : arc 360 d.pieces = arc 360 c.extent := by
  by_cases hdata : c.hasData
  · rw [Spans, if_neg (not_not.mpr hdata)] at h
    exact hd.arc (h.1.2 h.2.1)
  · rw [DrawnPhaseColumn.pieces, extent, if_pos hdata, if_pos (hd.hasData ▸ hdata)]

/-- **Headline.** For any phases, bins and columns: a column has the extent of the unwrapped phases
of its bins; what is drawn of it is that extent modulo 360, so the phase of every bin of the column
is drawn; and the pen is lifted at the edge pieces and the full bands, and wherever something is
drawn after them or after a hole. -/
theorem phaseTrace_exact (wrappedDeg : List K) (columnForBin : List ℤ) (columnCount : ℤ) :
    (wrapForDrawing (decimatePhaseToColumns wrappedDeg columnForBin columnCount)).length =
      (decimatePhaseToColumns wrappedDeg columnForBin columnCount).length ∧
    ∀ k c d, (decimatePhaseToColumns wrappedDeg columnForBin columnCount)[k]? = some c →
      (wrapForDrawing (decimatePhaseToColumns wrappedDeg columnForBin columnCount))[k]? = some d →
      c.Spans (phasesOf ((unwrapAlongBins wrappedDeg).zip columnForBin) k) ∧
      arc 360 d.pieces = arc 360 c.extent ∧
      (∀ deg ∈ phasesOf (wrappedDeg.zip columnForBin) k, (deg : AddCircle (360 : K)) ∈
        arc 360 d.pieces) ∧
      (d.straddlesWrap ∨ d.fullBand → d.penLift) ∧
      ∀ e, (wrapForDrawing (decimatePhaseToColumns wrappedDeg columnForBin columnCount))[k + 1]? =
        some e → e.hasData → ¬ d.hasData ∨ d.straddlesWrap ∨ d.fullBand → e.penLift := by
  have hdrawn := wrapFrom_drawnAs false 0
    (decimatePhaseToColumns wrappedDeg columnForBin columnCount)
  have hlifts := wrapFrom_liftsAfter false 0
    (decimatePhaseToColumns wrappedDeg columnForBin columnCount)
  refine ⟨hdrawn.length_eq.symm, fun k c d hc hd => ?_⟩
  have hspans := decimatePhaseToColumns_spans hc
  obtain ⟨hklt, rfl⟩ := List.getElem?_eq_some_iff.mp hc
  obtain ⟨hklt', rfl⟩ := List.getElem?_eq_some_iff.mp hd
  have hcd := (List.forall₂_iff_get.mp hdrawn).2 k hklt hklt'
  have harc := hspans.arc_eq hcd
  refine ⟨hspans, harc, fun deg hdeg => ?_, hcd.penLift, fun e he => ?_⟩
  · -- The bin's unwrapped phase is in the extent.
    obtain ⟨i, hi⟩ := List.mem_iff_getElem?.mp hdeg
    obtain ⟨hdegi, hki⟩ := List.getElem?_zip_eq_some.mp hi
    obtain ⟨hilt, rfl⟩ := List.getElem?_eq_some_iff.mp hdegi
    have hphases := List.forall₂_iff_get.mp (unwrapAlongBins_samePhase wrappedDeg)
    have hilt' := hphases.1 ▸ hilt
    obtain ⟨n, hn⟩ := hphases.2 i hilt hilt'
    rw [List.get_eq_getElem, List.get_eq_getElem] at hn
    have hv : (unwrapAlongBins wrappedDeg)[i] ∈
        phasesOf ((unwrapAlongBins wrappedDeg).zip columnForBin) k :=
      List.mem_iff_getElem?.mpr ⟨i, List.getElem?_zip_eq_some.mpr
        ⟨List.getElem?_eq_getElem hilt', hki⟩⟩
    have hmem := hspans.mem_extent hv
    refine harc.ge ⟨_, hmem, ?_⟩
    rw [hn]
    exact coe_add_turns _ n
  · obtain ⟨hklt'', rfl⟩ := List.getElem?_eq_some_iff.mp he
    exact hlifts.getElem k hklt''

/-- A column from 170 to 185 degrees is drawn from 170 to 180 and from -180 to -175. -/
theorem phaseTrace_exact_edge :
    arc 360 (DrawnPhaseColumn.mk (170 : ℚ) (-175) true true false true).pieces =
      arc 360 (PhaseColumn.mk (170 : ℚ) 185 true).extent :=
  ((phaseTrace_exact [170, -175, 10, 5] [0, 0, 2, 3] 4).2 0 _ _ (by decide +kernel)
    (by decide +kernel)).2.1

/-- At a hole the pen is not lifted, whether or not it follows another hole. -/
theorem wrapForDrawing_hole :
    ((wrapForDrawing (decimatePhaseToColumns ([10] : List ℚ) [0] 3)).map
      fun d => (d.hasData, d.penLift)) = [(true, true), (false, false), (false, false)] := by
  decide +kernel

end RtaTool
