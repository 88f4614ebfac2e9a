import RtaTool.Dsp.Refusals
import RtaTool.Lib.PiecewiseLinear
import Mathlib.Data.List.Induction

/-!
# Where two loudspeakers cross

`CrossoverFit.cpp`. The difference of two levels is read at the bins that both sides were measured
on, and as linear between two such bins that are neighbours. The scan is the one of
`PiecewiseLinear`: a zero on a bin is left to the pair of bins that begins with it. No pair begins
with the last bin of a run, and a zero there is missed.

## Main definitions

* `gated`, `crossingAt`, `spectralCrossover`
* `IsolatedCrossing` -- a zero on a run without two zeros next to each other
* `ListsCrossings` -- what the list, the refusal and the choice of a seed are meant to be
* `RunsEndOffZero` -- when they are

## Main results

* `listsCrossings_iff` -- **Headline.** The crossings are listed exactly if no run ends at a zero
-/

namespace RtaTool

namespace Dsp

open PiecewiseLinear

variable {K : Type*} [Field K] [LinearOrder K]

/-! ### `CrossoverFit.cpp` -/

/-- `SpectralCrossover`. -/
structure SpectralCrossover (K : Type*) [Field K] where
  frequencyHz : K := 0
  allCrossingsHz : List K := []
  refusal : CrossoverRefusal := .allBinsAbsent

/-- What `spectralCrossover` is given. -/
structure CrossoverInput (K : Type*) where
  magnitudeDbA : List K
  magnitudeDbB : List K
  coherenceA : Option (List K)
  coherenceB : Option (List K)
  binWidthHz : K
  minimumGatedCoherence : K
  seedHz : Option K

/-- `gated(coherenceA, coherenceB, k, floorValue)`. -/
def gated (coherenceA coherenceB : Option (List K)) (k : ℕ) (floorValue : K) : Bool :=
  match coherenceA, coherenceB with
  | some coherenceA, some coherenceB =>
    match coherenceA[k]?, coherenceB[k]? with
    | some gammaA, some gammaB => decide (floorValue ≤ gammaA) && decide (floorValue ≤ gammaB)
    | _, _ => false
  | _, _ => false

namespace CrossoverInput

variable (input : CrossoverInput K)

/-- The bins that both sides have. -/
def n : ℕ := min input.magnitudeDbA.length input.magnitudeDbB.length

/-- `gated` of a bin. -/
def gatedAt (k : ℕ) : Bool :=
  gated input.coherenceA input.coherenceB k input.minimumGatedCoherence

/-- The difference of the levels at a bin. -/
def difference (k : ℕ) : K := input.magnitudeDbA.getD k 0 - input.magnitudeDbB.getD k 0

/-- What one turn of the loop over the pairs adds to the list. -/
def crossingAt (k : ℕ) : Option K :=
  if !input.gatedAt k || !input.gatedAt (k + 1) then none
  else
    let d0 := input.difference k
    let d1 := input.difference (k + 1)
    if d0 = 0 then some (k * input.binWidthHz)
    else if (decide (d0 < 0) = decide (d1 < 0)) ∨ d1 = 0 then none
    else
      let t := -d0 / (d1 - d0)
      some ((k + t) * input.binWidthHz)

end CrossoverInput

/-- One turn of the loop over the crossings: the least distance so far, if there is one, and the
crossing it belongs to. -/
def nearer (log : K → K) (seedHz : K) (best : Option K × K) (f : K) : Option K × K :=
  if f ≤ 0 then best
  else
    let distance := |log (f / seedHz)|
    if best.1.all fun least => decide (distance < least) then (some distance, f) else best

/-- The crossing that is selected out of those found, of which `first` is the first. -/
def selected (log : K → K) (seedHz : Option K) (first : K) (crossings : List K) : K :=
  match seedHz with
  | some seed => if 0 < seed then (crossings.foldl (nearer log seed) (none, first)).2 else first
  | none => first

/-- `spectralCrossover`. -/
def spectralCrossover (log : K → K) (input : CrossoverInput K) : SpectralCrossover K :=
  if input.n < 2 then { refusal := .tooFewBins }
  else
    let gatedBins := (List.range input.n).countP input.gatedAt
    if gatedBins = 0 then { refusal := .allBinsAbsent }
    else if gatedBins < 2 then { refusal := .tooFewBins }
    else
      let allCrossingsHz := (List.range (input.n - 1)).filterMap input.crossingAt
      match allCrossingsHz with
      | [] => { refusal := .noCrossing }
      | first :: _ =>
        { frequencyHz := selected log input.seedHz first allCrossingsHz
          allCrossingsHz, refusal := .none }

/-! ### What is meant -/

/-- A bin takes part. -/
def CrossoverInput.There (input : CrossoverInput K) (k : ℕ) : Prop :=
  k < input.n ∧ input.gatedAt k = true

/-- A frequency where the levels are equal, between two bins next to each other that take part. -/
def Crossing (input : CrossoverInput K) (f : K) : Prop :=
  ∃ k x, input.There k ∧ input.There (k + 1) ∧ IsZeroOn input.difference k x ∧
    f = x * input.binWidthHz

/-- A run, of two bins at least, without two zeros next to each other. -/
structure CrossingRun (input : CrossoverInput K) (a b : ℕ) : Prop where
  run : Run input.There a b
  notFlat : ∀ k, a ≤ k → k < b → ¬ (input.difference k = 0 ∧ input.difference (k + 1) = 0)

/-- A crossing on such a run. -/
def IsolatedCrossing (input : CrossoverInput K) (f : K) : Prop :=
  ∃ a b k x, CrossingRun input a b ∧ a ≤ k ∧ k < b ∧ IsZeroOn input.difference k x ∧
    f = x * input.binWidthHz

/-- The list holds the crossings, once each and in order, a missing list is the absence of any, and
a seed selects a crossing above zero that is nearest to it. -/
structure ListsCrossings (log : K → K) (input : CrossoverInput K) (result : SpectralCrossover K) :
    Prop where
  ascending : result.allCrossingsHz.Pairwise (· < ·)
  crossing : ∀ f ∈ result.allCrossingsHz, Crossing input f
  complete : ∀ f, IsolatedCrossing input f → f ∈ result.allCrossingsHz
  noCrossing : result.refusal = .noCrossing ↔ ∀ f, ¬ Crossing input f
  nearest : ∀ seed, input.seedHz = some seed → 0 < seed →
    (∃ f, IsolatedCrossing input f ∧ 0 < f) →
      Crossing input result.frequencyHz ∧ 0 < result.frequencyHz ∧
        ∀ f, IsolatedCrossing input f → 0 < f →
          |log (result.frequencyHz / seed)| ≤ |log (f / seed)|

/-- No such run ends at a zero. -/
def RunsEndOffZero (input : CrossoverInput K) : Prop :=
  ∀ a b, CrossingRun input a b → input.difference b ≠ 0

/-! ### The scan -/

section Scan

variable {input : CrossoverInput K}

/-- A turn of the loop is the scan of a segment between bins that take part. -/
theorem crossingAt_eq (k : ℕ) :
    input.crossingAt k = if input.gatedAt k && input.gatedAt (k + 1) then
      (leftZero input.difference k).map (· * input.binWidthHz) else none := by
  rw [CrossoverInput.crossingAt, leftZero]
  cases input.gatedAt k with
  | false => rfl
  | true =>
    cases input.gatedAt (k + 1) with
    | false => rfl
    | true =>
      simp only [Bool.not_true, Bool.or_self, Bool.false_eq_true, if_false, Bool.and_self, if_true]
      split_ifs <;> rfl

theorem crossingAt_eq_some {k : ℕ} {f : K} :
    input.crossingAt k = some f ↔ input.gatedAt k = true ∧ input.gatedAt (k + 1) = true ∧
      ∃ x, leftZero input.difference k = some x ∧ x * input.binWidthHz = f := by
  rw [crossingAt_eq]
  simp [and_assoc]

theorem mem_scan_iff {f : K} :
    f ∈ (List.range (input.n - 1)).filterMap input.crossingAt ↔
      ∃ k x, input.There k ∧ input.There (k + 1) ∧ leftZero input.difference k = some x ∧
        f = x * input.binWidthHz := by
  rw [List.mem_filterMap]
  constructor
  · rintro ⟨k, hk, hf⟩
    obtain ⟨hleft, hright, x, hx, rfl⟩ := crossingAt_eq_some.mp hf
    have hk := List.mem_range.mp hk
    exact ⟨k, x, ⟨by omega, hleft⟩, ⟨by omega, hright⟩, hx, rfl⟩
  · rintro ⟨k, x, ⟨hk, hleft⟩, ⟨hk', hright⟩, hx, rfl⟩
    refine ⟨k, List.mem_range.mpr (by omega), crossingAt_eq_some.mpr ⟨hleft, hright, x, hx, rfl⟩⟩

variable [IsStrictOrderedRing K]

theorem pairwise_scan (hwidth : 0 < input.binWidthHz) (n : ℕ) :
    ((List.range n).filterMap input.crossingAt).Pairwise (· < ·) := by
  let find (k : ℕ) : Option K :=
    if input.gatedAt k && input.gatedAt (k + 1) then leftZero input.difference k else none
  have hmap : input.crossingAt = fun k => (find k).map (· * input.binWidthHz) := by
    funext k
    rw [crossingAt_eq]
    simp only [find]
    split_ifs <;> rfl
  have hfind : ∀ k x, find k = some x → (k : K) ≤ x ∧ x < k + 1 := by
    intro k x hx
    simp only [find] at hx
    split_ifs at hx
    obtain ⟨hzero, hlt⟩ := leftZero_spec hx
    exact ⟨hzero.left, hlt⟩
  rw [hmap, ← List.map_filterMap, List.pairwise_map]
  exact (pairwise_lt_filterMap n hfind).imp fun h => mul_lt_mul_of_pos_right h hwidth

/-- A zero on a segment that is not zero throughout is found there, or is its right end. -/
theorem mem_scan_of_isZeroOn {k : ℕ} {x : K} (hleft : input.There k) (hright : input.There (k + 1))
    (hflat : ¬ (input.difference k = 0 ∧ input.difference (k + 1) = 0))
    (hx : IsZeroOn input.difference k x) (hne : x ≠ k + 1) :
    x * input.binWidthHz ∈ (List.range (input.n - 1)).filterMap input.crossingAt :=
  mem_scan_iff.mpr ⟨k, x, hleft, hright, leftZero_of_isZeroOn hflat hx hne, rfl⟩

/-- A zero at a bin is found if the next one takes part too. -/
theorem mem_scan_of_zero {k : ℕ} (hleft : input.There k) (hright : input.There (k + 1))
    (hk : input.difference k = 0) :
    k * input.binWidthHz ∈ (List.range (input.n - 1)).filterMap input.crossingAt :=
  mem_scan_iff.mpr ⟨k, k, hleft, hright, if_pos hk, rfl⟩

theorem crossing_of_mem_scan {f : K}
    (hf : f ∈ (List.range (input.n - 1)).filterMap input.crossingAt) : Crossing input f := by
  obtain ⟨k, x, hleft, hright, hx, rfl⟩ := mem_scan_iff.mp hf
  exact ⟨k, x, hleft, hright, (leftZero_spec hx).1, rfl⟩

theorem mem_scan_of_isolated (hend : RunsEndOffZero input) {f : K}
    (hf : IsolatedCrossing input f) :
    f ∈ (List.range (input.n - 1)).filterMap input.crossingAt := by
  obtain ⟨a, b, k, x, hrun, hak, hkb, hx, rfl⟩ := hf
  have hleft := hrun.run.mem k hak hkb.le
  have hright := hrun.run.mem (k + 1) (by omega) hkb
  by_cases hne : x = k + 1
  · -- the zero is at a bin, which is not the last of the run
    have hzero : input.difference (k + 1) = 0 := by
      rw [← segmentValue_right (d := input.difference), ← hne]
      exact hx.value
    have hlt : k + 1 < b := by
      refine lt_of_le_of_ne hkb ?_
      intro heq
      rw [heq] at hzero
      exact hend a b hrun hzero
    have hmem := mem_scan_of_zero hright (hrun.run.mem (k + 2) (by omega) hlt) hzero
    rwa [Nat.cast_succ, ← hne] at hmem
  · exact mem_scan_of_isZeroOn hleft hright (hrun.notFlat k hak hkb) hx hne

theorem exists_mem_scan (hend : RunsEndOffZero input) {f : K} (hf : Crossing input f) :
    ∃ g, g ∈ (List.range (input.n - 1)).filterMap input.crossingAt := by
  obtain ⟨k, x, hleft, hright, hx, rfl⟩ := hf
  obtain ⟨a, b, hrun, hak, hkb⟩ := exists_run (n := input.n) (fun i hi => hi.1) hleft hright
  by_cases hflat : ∃ j, a ≤ j ∧ j < b ∧ input.difference j = 0 ∧ input.difference (j + 1) = 0
  · obtain ⟨j, haj, hjb, hj, -⟩ := hflat
    exact ⟨_, mem_scan_of_zero (hrun.mem j haj hjb.le) (hrun.mem (j + 1) (by omega) hjb) hj⟩
  · refine ⟨_, mem_scan_of_isolated hend ⟨a, b, k, x, ⟨hrun, fun j haj hjb hzero => ?_⟩, hak, hkb,
      hx, rfl⟩⟩
    exact hflat ⟨j, haj, hjb, hzero⟩

theorem not_mem_scan_of_end (hwidth : 0 < input.binWidthHz) {a b : ℕ}
    (hrun : CrossingRun input a b) (hb : input.difference b = 0) :
    b * input.binWidthHz ∉ (List.range (input.n - 1)).filterMap input.crossingAt := by
  intro hmem
  obtain ⟨k, x, -, hright, hx, heq⟩ := mem_scan_iff.mp hmem
  obtain rfl : (b : K) = x := mul_right_cancel₀ hwidth.ne' heq
  obtain ⟨hzero, hlt⟩ := leftZero_spec hx
  have hkb : k = b := by
    have hle : k ≤ b := by exact_mod_cast hzero.left
    have hlt : b < k + 1 := by exact_mod_cast hlt
    omega
  rw [hkb] at hright
  exact hrun.run.after hright

end Scan

/-! ### The seed -/

/-- What the loop over the crossings keeps: nothing before the first crossing above zero, and then
the nearest of those so far. -/
structure Nearest (log : K → K) (seedHz : K) (seen : List K) (best : Option K × K) : Prop where
  none : best.1 = none → ∀ f ∈ seen, f ≤ 0
  some : ∀ least, best.1 = some least → best.2 ∈ seen ∧ 0 < best.2 ∧
    least = |log (best.2 / seedHz)| ∧ ∀ f ∈ seen, 0 < f → least ≤ |log (f / seedHz)|

theorem Nearest.nearer {log : K → K} {seedHz : K} {seen : List K} {best : Option K × K}
    (h : Nearest log seedHz seen best) (f : K) :
    Nearest log seedHz (seen ++ [f]) (nearer log seedHz best f) := by
  rw [Dsp.nearer]
  dsimp only
  split_ifs with hf hless
  · refine ⟨fun hnone g hg => ?_, fun least hleast => ?_⟩
    · rcases List.mem_append.mp hg with hg | hg
      · exact h.none hnone g hg
      · rw [List.mem_singleton.mp hg]
        exact hf
    · obtain ⟨hmem, hpos, heq, hall⟩ := h.some least hleast
      refine ⟨List.mem_append_left _ hmem, hpos, heq, fun g hg hgpos => ?_⟩
      rcases List.mem_append.mp hg with hg | hg
      · exact hall g hg hgpos
      · rw [List.mem_singleton.mp hg] at hgpos
        exact absurd hf hgpos.not_ge
  · refine ⟨nofun, fun least hleast => ?_⟩
    obtain rfl := Option.some.inj hleast
    refine ⟨List.mem_append_right _ (List.mem_singleton_self f), not_le.mp hf, rfl,
      fun g hg hgpos => ?_⟩
    rcases List.mem_append.mp hg with hg | hg
    · cases hbest : best.1 with
      | none => exact absurd (h.none hbest g hg) hgpos.not_ge
      | some least =>
        rw [hbest, Option.all_some, decide_eq_true_iff] at hless
        exact hless.le.trans ((h.some least hbest).2.2.2 g hg hgpos)
    · rw [List.mem_singleton.mp hg]
  · obtain ⟨least, hbest⟩ : ∃ least, best.1 = .some least := by
      cases hbest : best.1 with
      | none =>
        rw [hbest] at hless
        exact absurd rfl hless
      | some least => exact ⟨least, rfl⟩
    refine ⟨fun hnone => ?_, fun least' hleast => ?_⟩
    · rw [hbest] at hnone
      cases hnone
    · obtain ⟨hmem, hpos, heq, hall⟩ := h.some least' hleast
      refine ⟨List.mem_append_left _ hmem, hpos, heq, fun g hg hgpos => ?_⟩
      rcases List.mem_append.mp hg with hg | hg
      · exact hall g hg hgpos
      · rw [hleast, Option.all_some, decide_eq_true_iff, not_lt] at hless
        rwa [List.mem_singleton.mp hg]

theorem nearest_foldl (log : K → K) (seedHz first : K) (crossings : List K) :
    Nearest log seedHz crossings (crossings.foldl (nearer log seedHz) (none, first)) := by
  induction crossings using List.reverseRecOn with
  | nil => exact ⟨fun _ f hf => absurd hf List.not_mem_nil, nofun⟩
  | append_singleton crossings f ih =>
    rw [List.foldl_append]
    exact ih.nearer f

theorem selected_nearest (log : K → K) {seedHz : K} (hseed : 0 < seedHz) (first : K)
    {crossings : List K} {g : K} (hg : g ∈ crossings) (hpos : 0 < g) :
    selected log (some seedHz) first crossings ∈ crossings ∧
      0 < selected log (some seedHz) first crossings ∧
      ∀ f ∈ crossings, 0 < f →
        |log (selected log (some seedHz) first crossings / seedHz)| ≤ |log (f / seedHz)| := by
  have h := nearest_foldl log seedHz first crossings
  rw [selected, if_pos hseed]
  cases hbest : (crossings.foldl (nearer log seedHz) (none, first)).1 with
  | none => exact absurd (h.none hbest g hg) hpos.not_ge
  | some least =>
    obtain ⟨hmem, hpos, heq, hall⟩ := h.some least hbest
    exact ⟨hmem, hpos, fun f hf hfpos => heq ▸ hall f hf hfpos⟩

/-! ### All of it -/

section Spec

variable {input : CrossoverInput K}

/-- With two bins that take part, the result is that of the scan. -/
theorem spectralCrossover_eq (log : K → K)
    (hgated : 2 ≤ (List.range input.n).countP input.gatedAt) :
    (spectralCrossover log input).allCrossingsHz =
        (List.range (input.n - 1)).filterMap input.crossingAt ∧
      ((spectralCrossover log input).refusal = .noCrossing ↔
        (spectralCrossover log input).allCrossingsHz = []) ∧
      ∀ f, f ∈ (spectralCrossover log input).allCrossingsHz → ∃ first,
        (spectralCrossover log input).frequencyHz =
          selected log input.seedHz first (spectralCrossover log input).allCrossingsHz := by
  have hn : ¬ input.n < 2 := by
    have hle := hgated.trans List.countP_le_length
    rw [List.length_range] at hle
    omega
  rw [spectralCrossover, if_neg hn]
  dsimp only
  rw [if_neg (by omega), if_neg (by omega)]
  cases hscan : (List.range (input.n - 1)).filterMap input.crossingAt with
  | nil => exact ⟨rfl, iff_of_true rfl rfl, fun f hf => absurd hf List.not_mem_nil⟩
  | cons first rest =>
    refine ⟨rfl, iff_of_false (by simp) (by simp), fun f _ => ⟨first, rfl⟩⟩

variable [IsStrictOrderedRing K]

/-- **Headline.** The crossings are listed exactly if no run ends at a zero. -/
theorem listsCrossings_iff (log : K → K) (input : CrossoverInput K)
    (hwidth : 0 < input.binWidthHz) (hgated : 2 ≤ (List.range input.n).countP input.gatedAt) :
    ListsCrossings log input (spectralCrossover log input) ↔ RunsEndOffZero input := by
  obtain ⟨hall, hrefusal, hselected⟩ := spectralCrossover_eq log hgated
  constructor
  · intro h a b hrun hb
    have hab := hrun.run.lt
    have hlast : b - 1 + 1 = b := by omega
    have hzero : IsZeroOn input.difference (b - 1) b := by
      have hright := isZeroOn_right (d := input.difference) (k := b - 1) (by rwa [hlast])
      rwa [← Nat.cast_succ, Nat.succ_eq_add_one, hlast] at hright
    have hmem := h.complete _ ⟨a, b, b - 1, b, hrun, by omega, by omega, hzero, rfl⟩
    rw [hall] at hmem
    exact not_mem_scan_of_end hwidth hrun hb hmem
  · intro hend
    refine ⟨?_, fun f hf => ?_, fun f hf => ?_, ?_, fun seed hseed hpos hsome => ?_⟩
    · rw [hall]
      exact pairwise_scan hwidth _
    · rw [hall] at hf
      exact crossing_of_mem_scan hf
    · rw [hall]
      exact mem_scan_of_isolated hend hf
    · rw [hrefusal, hall]
      constructor
      · intro hnil f hf
        obtain ⟨g, hg⟩ := exists_mem_scan hend hf
        rw [hnil] at hg
        exact absurd hg List.not_mem_nil
      · intro hnone
        refine List.eq_nil_iff_forall_not_mem.mpr fun f hf => ?_
        exact hnone f (crossing_of_mem_scan hf)
    · obtain ⟨g, hg, hgpos⟩ := hsome
      have hgmem : g ∈ (spectralCrossover log input).allCrossingsHz := by
        rw [hall]
        exact mem_scan_of_isolated hend hg
      obtain ⟨first, hfrequency⟩ := hselected g hgmem
      obtain ⟨hmem, hfpos, hleast⟩ := selected_nearest log hpos first hgmem hgpos
      rw [hfrequency, hseed]
      refine ⟨?_, hfpos, fun f hf hfpos => hleast f ?_ hfpos⟩
      · rw [hall] at hmem ⊢
        exact crossing_of_mem_scan hmem
      · rw [hall]
        exact mem_scan_of_isolated hend hf

/-- Two sides that cross between the first two of three bins. -/
def earlyCrossing : CrossoverInput ℚ where
  magnitudeDbA := [-6, 2, 3]
  magnitudeDbB := [0, 0, 0]
  coherenceA := some [1, 1, 1]
  coherenceB := some [1, 1, 1]
  binWidthHz := 10
  minimumGatedCoherence := 1 / 2
  seedHz := none

theorem listsCrossings_iff_early :
    ListsCrossings id earlyCrossing (spectralCrossover id earlyCrossing) ∧
      (spectralCrossover id earlyCrossing).allCrossingsHz = [15 / 2] := by
  have hend : RunsEndOffZero earlyCrossing := by
    intro a b hrun
    have hn : earlyCrossing.n = 3 := rfl
    have hlast : b = 2 := by
      have hb := (hrun.run.mem b hrun.run.lt.le le_rfl).1
      have hafter := hrun.run.after
      by_contra hne
      rw [hn] at hb
      obtain rfl | rfl : b = 0 ∨ b = 1 := by omega
      · exact hafter ⟨by decide, by with_unfolding_all rfl⟩
      · exact hafter ⟨by decide, by with_unfolding_all rfl⟩
    have hvalue : earlyCrossing.difference 2 = 3 := by with_unfolding_all rfl
    rw [hlast, hvalue]
    norm_num
  have hcount : (List.range earlyCrossing.n).countP earlyCrossing.gatedAt = 3 := by
    with_unfolding_all rfl
  have hwidth : (0 : ℚ) < earlyCrossing.binWidthHz := by
    show (0 : ℚ) < 10
    norm_num
  refine ⟨(listsCrossings_iff id earlyCrossing hwidth (hcount ▸ by omega)).mpr hend, ?_⟩
  with_unfolding_all rfl

/-- Two sides that come together in the last of two bins. -/
def meetingAtEnd : CrossoverInput ℚ where
  magnitudeDbA := [-6, 0]
  magnitudeDbB := [0, 0]
  coherenceA := some [1, 1]
  coherenceB := some [1, 1]
  binWidthHz := 10
  minimumGatedCoherence := 1 / 2
  seedHz := none

/-- The crossing at 10 Hz is not found, and it is said that there is none. -/
theorem not_listsCrossings_meetingAtEnd :
    ¬ ListsCrossings id meetingAtEnd (spectralCrossover id meetingAtEnd) := by
  intro h
  have hrefusal : (spectralCrossover id meetingAtEnd).refusal = .noCrossing := by
    with_unfolding_all rfl
  have hthere : meetingAtEnd.There 0 ∧ meetingAtEnd.There 1 :=
    ⟨⟨by decide, by with_unfolding_all rfl⟩, ⟨by decide, by with_unfolding_all rfl⟩⟩
  have hvalue : meetingAtEnd.difference (0 + 1) = 0 := by with_unfolding_all rfl
  have hzero := isZeroOn_right hvalue
  rw [Nat.cast_zero, zero_add] at hzero
  exact h.noCrossing.mp hrefusal (1 * 10) ⟨0, 1, hthere.1, hthere.2, hzero, rfl⟩

end Spec

end Dsp

end RtaTool
