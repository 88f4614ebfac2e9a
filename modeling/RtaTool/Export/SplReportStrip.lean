import RtaTool.Export.SplReportText
import RtaTool.Lib.Numerals
import Mathlib.Data.EReal.Inv

/-!
# The time history strip

`renderHistory`, as the shapes it draws: the excluded rectangle, a line of points for each series
and a line for each marker. One scale, taken from all three, gives them their place along the
strip. The shapes are those of the report's text (`renderHistory_eq`), whatever the arithmetic; in
exact arithmetic, with levels that may be infinite, they are inside the strip and in order.

## Main definitions

* `StripMath`, `StripPayload` -- the arithmetic, and what is drawn
* `StripShape`, `shapesAt`, `historyShapes`
* `exactStrip` -- exact arithmetic, with the infinities

## Main results

* `renderHistory_eq` -- the text of the report is that of the shapes
* `historyShapes_spec` -- **Headline.** Inside the strip, in order, and as wide as it spans
-/

namespace RtaTool

namespace SplReport

/-! ### The shapes -/

/-- The arithmetic of the strip. -/
structure StripMath (D : Type) where
  sub : D → D → D
  mul : D → D → D
  div : D → D → D
  lt : D → D → Bool
  ofInt : ℤ → D

namespace StripMath

variable {D : Type} (math : StripMath D)

/-- `std::min`. -/
def min (x y : D) : D := if math.lt y x then y else x

/-- `std::max`. -/
def max (x y : D) : D := if math.lt x y then y else x

end StripMath

/-- What `renderHistory` reads of `ReportPayload`. -/
structure StripPayload (D : Type) where
  history : List (List (ℕ × D))
  markers : List Marker
  excludedBlockRange : Option ExcludedRange

/-- What `renderHistory` draws. -/
inductive StripShape (D : Type)
  | rect (x width : D)
  | polyline (points : List (D × D))
  | line (cls : Bytes) (x : D)

namespace StripPayload

variable {D : Type} (math : StripMath D) (p : StripPayload D)

/-- The blocks that the scale is taken from. -/
def scaleBlocks : List ℕ :=
  p.history.flatMap (fun series => series.map Prod.fst) ++ p.markers.map (·.blockIndex) ++
    match p.excludedBlockRange with
    | some range => [range.startBlockIndex, range.endBlockIndex]
    | none => []

/-- `xFor(idx)`. -/
def xFor (idx : ℕ) : D :=
  match p.scaleBlocks.foldl widenScale none with
  | none => math.ofInt 0
  | some (first, last) =>
    let span := if first < last then math.ofInt (last - first) else math.ofInt 1
    let delta := if first ≤ idx then math.ofInt (idx - first) else math.ofInt 0
    math.mul (math.div delta span) (math.ofInt 1000)

end StripPayload

/-- How high up a level is drawn. -/
def levelY {D : Type} (math : StripMath D) (valueDb : D) : D :=
  let kH := math.ofInt 120
  let kFloor := math.ofInt (-20)
  let kCeil := math.ofInt 140
  let clamped := math.min (math.max valueDb kFloor) kCeil
  math.sub kH (math.mul (math.div (math.sub clamped kFloor) (math.sub kCeil kFloor)) kH)

/-- The shapes, with every block at the place that `x` gives it. -/
def shapesAt {D : Type} (math : StripMath D) (p : StripPayload D) (x : ℕ → D) :
    List (StripShape D) :=
  (p.excludedBlockRange.toList.map fun range =>
    .rect (math.min (x range.startBlockIndex) (x range.endBlockIndex))
      (math.sub (math.max (x range.startBlockIndex) (x range.endBlockIndex))
        (math.min (x range.startBlockIndex) (x range.endBlockIndex)))) ++
    ((p.history.filter (!·.isEmpty)).map fun series =>
      .polyline (series.map fun pt => (x pt.1, levelY math pt.2))) ++
    ((p.markers.filter fun marker => markerClass marker.kind ≠ []).map fun marker =>
      .line (markerClass marker.kind) (x marker.blockIndex))

/-- The shapes of `renderHistory`. -/
def historyShapes {D : Type} (math : StripMath D) (p : StripPayload D) : List (StripShape D) :=
  shapesAt math p (p.xFor math)

/-! ### The text -/

/-- A shape, as it is written. -/
def StripShape.text {D : Type} (print : D → Bytes) : StripShape D → Bytes
  | .rect x width =>
    bytes "<rect class=\"excluded-region\" x=\"" ++ print x ++ bytes "\" y=\"0\" width=\"" ++
      print width ++ bytes "\" height=\"120\" />"
  | .polyline points =>
    bytes "<polyline class=\"trace\" points=\"" ++
      (points.flatMap fun pt => print pt.1 ++ bytes "," ++ print pt.2 ++ bytes " ") ++
      bytes "\" />"
  | .line cls x =>
    bytes "<line class=\"" ++ cls ++ bytes "\" x1=\"" ++ print x ++ bytes "\" x2=\"" ++ print x ++
      bytes "\" y1=\"0\" y2=\"120\" />"

/-- The arithmetic of doubles. -/
def DoubleMath.strip (math : DoubleMath) : StripMath Binary64Datum where
  sub := math.sub
  mul := math.mul
  div := math.div
  lt := math.lt
  ofInt := math.ofInt

/-- What is drawn of a payload. -/
def Payload.strip (p : Payload) : StripPayload Binary64Datum where
  history := p.history.map fun series => series.map fun pt => (pt.blockIndex, pt.valueDb)
  markers := p.markers
  excludedBlockRange := p.validity.excludedBlockRange

theorem scaleBlocks_strip (p : Payload) : p.strip.scaleBlocks = scaleBlocks p := by
  rw [StripPayload.scaleBlocks.eq_def, scaleBlocks.eq_def, Payload.strip]
  simp only [List.flatMap_map, List.map_map]
  rfl

theorem xFor_strip (math : DoubleMath) (p : Payload) (idx : ℕ) :
    p.strip.xFor math.strip idx = xFor math p idx := by
  rw [StripPayload.xFor.eq_def, xFor.eq_def, scaleBlocks_strip]
  rfl

theorem flatMap_eq_filter_map {α β : Type} {keep : α → Bool} {g : α → β} {text : β → Bytes}
    {f : α → Bytes} (h : ∀ a, f a = if keep a then text (g a) else []) (l : List α) :
    l.flatMap f = ((l.filter keep).map g).flatMap text := by
  induction l with
  | nil => rfl
  | cons a l ih =>
    rw [List.flatMap_cons, ih, h a, List.filter_cons]
    split_ifs
    · rw [List.map_cons, List.flatMap_cons]
    · rfl

/-- The text of the report is that of the shapes. -/
theorem renderHistory_eq (math : DoubleMath) (p : Payload) :
    renderHistory math p = «section» (bytes "history") (bytes "Time history")
      (bytes ("<svg class=\"strip\" viewBox=\"0 0 1000 120\" " ++
        "xmlns=\"http://www.w3.org/2000/svg\">") ++
        (historyShapes math.strip p.strip).flatMap (StripShape.text toStringDouble) ++
        bytes "</svg>") := by
  have hx : p.strip.xFor math.strip = xFor math p := funext fun idx => xFor_strip math p idx
  have hregion : excludedRegion math p =
      (p.strip.excludedBlockRange.toList.map fun range => StripShape.rect
        (math.strip.min (xFor math p range.startBlockIndex) (xFor math p range.endBlockIndex))
        (math.sub
          (math.strip.max (xFor math p range.startBlockIndex) (xFor math p range.endBlockIndex))
          (math.strip.min (xFor math p range.startBlockIndex) (xFor math p range.endBlockIndex)))
        ).flatMap (StripShape.text toStringDouble) := by
    rw [excludedRegion.eq_def]
    change _ = (p.validity.excludedBlockRange.toList.map _).flatMap _
    cases p.validity.excludedBlockRange with
    | none => rfl
    | some range => exact (List.append_nil _).symm
  have htraces : p.history.flatMap (historyTrace math p) =
      ((p.strip.history.filter (!·.isEmpty)).map fun series => StripShape.polyline
        (series.map fun pt => (xFor math p pt.1, levelY math.strip pt.2))).flatMap
        (StripShape.text toStringDouble) := by
    rw [← flatMap_eq_filter_map fun _ => rfl, Payload.strip, List.flatMap_map]
    refine List.flatMap_congr fun series _ => ?_
    rw [historyTrace]
    by_cases hnil : series = []
    · rw [if_pos hnil, hnil]
      rfl
    · rw [if_neg hnil, if_pos (by simp [hnil]), StripShape.text, List.map_map, List.flatMap_map]
      rfl
  have hmarkers : p.markers.flatMap (markerLine math p) =
      ((p.strip.markers.filter fun marker => markerClass marker.kind ≠ []).map fun marker =>
        StripShape.line (markerClass marker.kind) (xFor math p marker.blockIndex)).flatMap
        (StripShape.text toStringDouble) := by
    refine flatMap_eq_filter_map (fun marker => ?_) p.markers
    rw [markerLine]
    by_cases hnil : markerClass marker.kind = []
    · rw [if_pos hnil, if_neg (by simp [hnil])]
    · rw [if_neg hnil, if_pos (by simp [hnil])]
      rfl
  rw [renderHistory, historyShapes, hx, shapesAt, List.flatMap_append, List.flatMap_append,
    hregion, htraces, hmarkers]
  simp only [List.append_assoc]
  rfl

/-! ### Exact arithmetic -/

open Classical in
/-- Exact arithmetic, with the infinities. -/
noncomputable def exactStrip : StripMath EReal where
  sub x y := x - y
  mul x y := x * y
  div x y := x / y
  lt x y := decide (x < y)
  ofInt n := (n : ℝ)

theorem exactStrip_ofInt (n : ℤ) : exactStrip.ofInt n = ((n : ℝ) : EReal) := rfl

theorem exactStrip_min (x y : ℝ) : exactStrip.min x y = ((min x y : ℝ) : EReal) := by
  rw [StripMath.min, exactStrip]
  simp only [EReal.coe_lt_coe_iff, decide_eq_true_eq]
  split_ifs with h
  · rw [min_eq_right h.le]
  · rw [min_eq_left (not_lt.mp h)]

theorem exactStrip_max (x y : ℝ) : exactStrip.max x y = ((max x y : ℝ) : EReal) := by
  rw [StripMath.max, exactStrip]
  simp only [EReal.coe_lt_coe_iff, decide_eq_true_eq]
  split_ifs with h
  · rw [max_eq_right h.le]
  · rw [max_eq_left (not_lt.mp h)]

/-- A level is drawn inside the strip, however high or low it is. -/
theorem levelY_exact (valueDb : EReal) :
    ∃ y : ℝ, 0 ≤ y ∧ y ≤ 120 ∧ levelY exactStrip valueDb = y := by
  obtain ⟨c, hlow, hhigh, hc⟩ : ∃ c : ℝ, -20 ≤ c ∧ c ≤ 140 ∧
      exactStrip.min (exactStrip.max valueDb (exactStrip.ofInt (-20))) (exactStrip.ofInt 140) =
        c := by
    induction valueDb with
    | bot =>
      refine ⟨-20, le_rfl, by norm_num, ?_⟩
      have hmax : exactStrip.max ⊥ (exactStrip.ofInt (-20)) = ((-20 : ℝ) : EReal) := by
        rw [StripMath.max, exactStrip_ofInt]
        simp [exactStrip, EReal.bot_lt_coe]
      rw [hmax, exactStrip_ofInt, exactStrip_min]
      norm_num
    | coe v =>
      refine ⟨min (max v (-20)) 140, ?_, min_le_right _ _, ?_⟩
      · exact le_min (le_max_right _ _) (by norm_num)
      · rw [exactStrip_ofInt, exactStrip_max, exactStrip_ofInt, exactStrip_min]
        norm_num
    | top =>
      refine ⟨140, by norm_num, le_rfl, ?_⟩
      have hmax : exactStrip.max ⊤ (exactStrip.ofInt (-20)) = ⊤ := by
        rw [StripMath.max, exactStrip_ofInt]
        simp [exactStrip]
      rw [hmax, StripMath.min, exactStrip_ofInt]
      simp [exactStrip, EReal.coe_lt_top]
  refine ⟨120 - (c - -20) / (140 - -20) * 120, ?_, ?_, ?_⟩
  · linarith
  · linarith
  · rw [levelY, hc]
    simp only [exactStrip]
    push_cast
    rfl

/-! ### The scale -/

theorem foldl_widenScale (blocks : List ℕ) {first last : ℕ} (hle : first ≤ last) :
    ∃ first' last', blocks.foldl widenScale (some (first, last)) = some (first', last') ∧
      first' ≤ first ∧ last ≤ last' ∧ ∀ b ∈ blocks, first' ≤ b ∧ b ≤ last' := by
  induction blocks generalizing first last with
  | nil => exact ⟨first, last, rfl, le_rfl, le_rfl, by simp⟩
  | cons b blocks ih =>
    have hnext : (if b < first then b else first) ≤ if last < b then b else last := by
      split_ifs <;> omega
    obtain ⟨first', last', hfold, hfirst, hlast, hall⟩ := ih hnext
    refine ⟨first', last', hfold, ?_, ?_, List.forall_mem_cons.mpr ⟨⟨?_, ?_⟩, hall⟩⟩
    · split_ifs at hfirst <;> omega
    · split_ifs at hlast <;> omega
    · split_ifs at hfirst <;> omega
    · split_ifs at hlast <;> omega

/-- The place of a block along the strip. -/
noncomputable def stripPlace (first last idx : ℕ) : ℝ :=
  ((idx - first : ℕ) : ℝ) / (if first < last then (last - first : ℕ) else 1 : ℕ) * 1000

theorem stripPlace_nonneg (first last idx : ℕ) : 0 ≤ stripPlace first last idx := by
  rw [stripPlace]
  positivity

theorem monotone_stripPlace (first last : ℕ) : Monotone (stripPlace first last) := by
  intro i j hij
  rw [stripPlace, stripPlace]
  gcongr

theorem stripPlace_le {first last idx : ℕ} (hlast : idx ≤ last) :
    stripPlace first last idx ≤ 1000 := by
  rw [stripPlace]
  split_ifs with hlt
  · have hwidth : (0 : ℝ) < (last - first : ℕ) := by exact_mod_cast Nat.sub_pos_of_lt hlt
    have hratio : ((idx - first : ℕ) : ℝ) / (last - first : ℕ) ≤ 1 := by
      rw [div_le_one hwidth]
      exact_mod_cast Nat.sub_le_sub_right hlast first
    linarith
  · rw [Nat.sub_eq_zero_of_le (by omega)]
    norm_num

/-- Different blocks of the scale have different places. -/
theorem stripPlace_lt {first last i j : ℕ} (hi : first ≤ i) (hij : i < j) (hj : j ≤ last) :
    stripPlace first last i < stripPlace first last j := by
  have hlt : first < last := by omega
  have hwidth : (0 : ℝ) < (last - first : ℕ) := by exact_mod_cast Nat.sub_pos_of_lt hlt
  have hstep : ((i - first : ℕ) : ℝ) < (j - first : ℕ) := by
    exact_mod_cast Nat.sub_lt_sub_right hi hij
  rw [stripPlace, stripPlace, if_pos hlt]
  gcongr

/-- Where the blocks are drawn: in order, and those of the scale inside the strip and apart. -/
theorem xFor_exact (p : StripPayload EReal) :
    ∃ x : ℕ → ℝ, (∀ idx, p.xFor exactStrip idx = x idx) ∧ Monotone x ∧
      (∀ idx ∈ p.scaleBlocks, 0 ≤ x idx ∧ x idx ≤ 1000) ∧
      ∀ i ∈ p.scaleBlocks, ∀ j ∈ p.scaleBlocks, i < j → x i < x j := by
  cases hblocks : p.scaleBlocks with
  | nil =>
    refine ⟨fun _ => 0, fun idx => ?_, monotone_const, by simp, by simp⟩
    rw [StripPayload.xFor.eq_def, hblocks, List.foldl_nil]
    simp only [exactStrip_ofInt, Int.cast_zero]
  | cons b blocks =>
    obtain ⟨first, last, hfold, hfirst, hlast, hall⟩ := foldl_widenScale blocks (le_refl b)
    have hscale : ∀ idx ∈ b :: blocks, first ≤ idx ∧ idx ≤ last :=
      List.forall_mem_cons.mpr ⟨⟨hfirst, hlast⟩, hall⟩
    refine ⟨stripPlace first last, fun idx => ?_, monotone_stripPlace first last,
      fun idx hidx => ?_, fun i hi j hj hij => ?_⟩
    · rw [StripPayload.xFor.eq_def, hblocks, List.foldl_cons]
      change (match blocks.foldl widenScale (some (b, b)) with
        | none => _
        | some (first, last) => _) = _
      rw [hfold]
      dsimp only
      have hspan : (if first < last then exactStrip.ofInt (last - first) else exactStrip.ofInt 1) =
          (((if first < last then (last - first : ℕ) else 1 : ℕ) : ℝ) : EReal) := by
        split_ifs with hlt
        · rw [← Nat.cast_sub hlt.le, exactStrip_ofInt, Int.cast_natCast]
        · rw [exactStrip_ofInt, Int.cast_one, Nat.cast_one]
      have hdelta : (if first ≤ idx then exactStrip.ofInt (idx - first) else exactStrip.ofInt 0) =
          (((idx - first : ℕ) : ℝ) : EReal) := by
        split_ifs with hle
        · rw [← Nat.cast_sub hle, exactStrip_ofInt, Int.cast_natCast]
        · rw [exactStrip_ofInt, Nat.sub_eq_zero_of_le (not_le.mp hle).le, Int.cast_zero,
            Nat.cast_zero]
      rw [hspan, hdelta, exactStrip_ofInt, stripPlace, EReal.coe_mul, EReal.coe_div]
      rfl
    · exact ⟨stripPlace_nonneg _ _ _, stripPlace_le (hscale idx hidx).2⟩
    · exact stripPlace_lt (hscale i hi).1 hij (hscale j hj).2

/-- A shape that is inside the strip. -/
def StripShape.Inside : StripShape EReal → Prop
  | .rect x width => 0 ≤ x ∧ 0 ≤ width ∧ x + width ≤ 1000
  | .polyline points => ∀ pt ∈ points, (0 ≤ pt.1 ∧ pt.1 ≤ 1000) ∧ 0 ≤ pt.2 ∧ pt.2 ≤ 120
  | .line _ x => 0 ≤ x ∧ x ≤ 1000

/-- **Headline.** In exact arithmetic every shape is inside the strip; a block is drawn at one
place, in the rectangle, in the traces and as a marker, and a later block nowhere before it; and a
rectangle of at least two blocks has a width. -/
theorem historyShapes_spec (p : StripPayload EReal) :
    (∃ x : ℕ → EReal, Monotone x ∧ historyShapes exactStrip p = shapesAt exactStrip p x) ∧
    (∀ shape ∈ historyShapes exactStrip p, shape.Inside) ∧
    ∀ range ∈ p.excludedBlockRange, range.startBlockIndex ≠ range.endBlockIndex →
      ∀ x width, .rect x width ∈ historyShapes exactStrip p → 0 < width := by
  obtain ⟨x, hx, hmono, hinside, happart⟩ := xFor_exact p
  have hfun : p.xFor exactStrip = fun idx => (x idx : EReal) := funext hx
  have hrect : ∀ shape ∈ p.excludedBlockRange.toList.map fun range => StripShape.rect
      (exactStrip.min (x range.startBlockIndex) (x range.endBlockIndex))
      (exactStrip.sub (exactStrip.max (x range.startBlockIndex) (x range.endBlockIndex))
        (exactStrip.min (x range.startBlockIndex) (x range.endBlockIndex))),
      ∃ range ∈ p.excludedBlockRange, shape = .rect
        ((min (x range.startBlockIndex) (x range.endBlockIndex) : ℝ) : EReal)
        ((max (x range.startBlockIndex) (x range.endBlockIndex) -
          min (x range.startBlockIndex) (x range.endBlockIndex) : ℝ) : EReal) := by
    intro shape hshape
    obtain ⟨range, hrange, rfl⟩ := List.mem_map.mp hshape
    refine ⟨range, Option.mem_toList.mp hrange, ?_⟩
    rw [exactStrip_min, exactStrip_max]
    rfl
  have hends : ∀ range ∈ p.excludedBlockRange, range.startBlockIndex ∈ p.scaleBlocks ∧
      range.endBlockIndex ∈ p.scaleBlocks := by
    intro range hrange
    rw [StripPayload.scaleBlocks.eq_def, Option.mem_def.mp hrange]
    simp
  have hcoe : ∀ a b : ℝ, 0 ≤ a ∧ a ≤ b → (0 : EReal) ≤ a ∧ (a : EReal) ≤ (b : ℝ) := fun a b h =>
    ⟨EReal.coe_nonneg.mpr h.1, EReal.coe_le_coe_iff.mpr h.2⟩
  rw [historyShapes, hfun]
  refine ⟨⟨fun idx => (x idx : EReal), fun i j hij => EReal.coe_le_coe_iff.mpr (hmono hij), rfl⟩,
    ?_, ?_⟩
  · intro shape hshape
    rw [shapesAt, List.mem_append, List.mem_append] at hshape
    obtain (hshape | hshape) | hshape := hshape
    · obtain ⟨range, hrange, rfl⟩ := hrect shape hshape
      obtain ⟨hstart, hend⟩ := hends range hrange
      obtain ⟨hlow, hhigh⟩ := hinside _ hstart
      obtain ⟨hlow', hhigh'⟩ := hinside _ hend
      rw [StripShape.Inside, ← EReal.coe_add, add_sub_cancel]
      refine ⟨(hcoe _ _ ⟨le_min hlow hlow', min_le_of_left_le hhigh⟩).1, ?_,
        (hcoe _ _ ⟨le_max_of_le_left hlow, max_le hhigh hhigh'⟩).2⟩
      exact EReal.coe_nonneg.mpr (sub_nonneg.mpr min_le_max)
    · obtain ⟨series, hseries, rfl⟩ := List.mem_map.mp hshape
      intro pt hpt
      obtain ⟨point, hpoint, rfl⟩ := List.mem_map.mp hpt
      have hblock : point.1 ∈ p.scaleBlocks := by
        rw [StripPayload.scaleBlocks.eq_def, List.mem_append, List.mem_append]
        exact .inl (.inl (List.mem_flatMap.mpr ⟨series, (List.mem_filter.mp hseries).1,
          List.mem_map_of_mem hpoint⟩))
      obtain ⟨y, hlow, hhigh, hy⟩ := levelY_exact point.2
      dsimp only
      rw [hy]
      exact ⟨hcoe _ _ (hinside point.1 hblock), hcoe _ _ ⟨hlow, hhigh⟩⟩
    · obtain ⟨marker, hmarker, rfl⟩ := List.mem_map.mp hshape
      have hblock : marker.blockIndex ∈ p.scaleBlocks := by
        rw [StripPayload.scaleBlocks.eq_def, List.mem_append, List.mem_append]
        exact .inl (.inr (List.mem_map_of_mem (List.mem_filter.mp hmarker).1))
      exact hcoe _ _ (hinside marker.blockIndex hblock)
  · intro range hrange hne x' width hshape
    rw [shapesAt, List.mem_append, List.mem_append] at hshape
    obtain (hshape | hshape) | hshape := hshape
    · obtain ⟨range', hrange', heq⟩ := hrect _ hshape
      obtain rfl : range = range' := Option.mem_unique hrange hrange'
      obtain ⟨hstart, hend⟩ := hends range hrange
      obtain ⟨-, rfl⟩ := StripShape.rect.inj heq
      rw [EReal.coe_pos, sub_pos, min_lt_max]
      obtain hlt | hgt := lt_or_gt_of_ne hne
      · exact (happart _ hstart _ hend hlt).ne
      · exact (happart _ hend _ hstart hgt).ne'
    · obtain ⟨series, -, heq⟩ := List.mem_map.mp hshape
      cases heq
    · obtain ⟨marker, -, heq⟩ := List.mem_map.mp hshape
      cases heq

end SplReport

end RtaTool
