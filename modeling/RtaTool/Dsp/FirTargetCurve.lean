import RtaTool.Dsp.FirDesign
import RtaTool.Lib.PiecewiseLinear

/-!
# What a target reads between its breakpoints

`interpolateFirTargetDb` of `FirDesign.cpp` on the targets that `validateTarget` lets through. The
breakpoints are ascending, so the search lands on the two around a frequency that is none of them,
and the level is linear in its logarithm there. The validator does not ask that they are positive:
where the lower of the two is not, its logarithm is taken all the same.

## Main definitions

* `logArguments`, `logDivisors` -- what the logarithm is taken of, and divided by
* `OnCurve`, `CurveRead` -- what a level has to be, and that it is had

## Main results

* `lt_iff_lt_lowerBound` -- `std::lower_bound`
* `TargetValid.reading` -- which breakpoints the search lands on
* `interpolateFirTargetDb_reads` -- **Headline.** The frequencies at which a target is read
* `forall_curveRead_iff` -- the targets that are read at every frequency from zero on
-/

namespace RtaTool

namespace Dsp

variable {K : Type*} [Field K] [LinearOrder K]

/-! ### What is read -/

/-- What `interpolateFirTargetDb` takes the logarithm of. -/
def logArguments (target : FirTarget K) (frequencyHz : K) : List K :=
  let fs := target.frequencyHz
  match fs with
  | [] => []
  | front :: _ =>
    if frequencyHz ≤ front then []
    else if fs.getLastD 0 ≤ frequencyHz then []
    else
      let hi := (fs.takeWhile (· < frequencyHz)).length
      let lo := hi - 1
      if fs.getD hi 0 = frequencyHz then [] else [fs.getD lo 0, fs.getD hi 0, frequencyHz]

/-- What `interpolateFirTargetDb` divides by. -/
def logDivisors (math : FirMath K) (target : FirTarget K) (frequencyHz : K) : List K :=
  let fs := target.frequencyHz
  match fs with
  | [] => []
  | front :: _ =>
    if frequencyHz ≤ front then []
    else if fs.getLastD 0 ≤ frequencyHz then []
    else
      let hi := (fs.takeWhile (· < frequencyHz)).length
      let lo := hi - 1
      if fs.getD hi 0 = frequencyHz then []
      else [math.log10 (fs.getD hi 0) - math.log10 (fs.getD lo 0)]

/-- A level is the first gain up to the first breakpoint, the last from the last on, a breakpoint's
own gain there, and between the two gains around it elsewhere. -/
structure OnCurve (target : FirTarget K) (frequencyHz db : K) : Prop where
  first : frequencyHz ≤ target.frequencyHz.headD 0 → db = target.gainDb.headD 0
  last : target.frequencyHz.getLastD 0 ≤ frequencyHz → db = target.gainDb.getLastD 0
  breakpoint : ∀ i < target.frequencyHz.length, target.frequencyHz.getD i 0 = frequencyHz →
    db = target.gainDb.getD i 0
  between : ∀ i, i + 1 < target.frequencyHz.length → target.frequencyHz.getD i 0 < frequencyHz →
    frequencyHz < target.frequencyHz.getD (i + 1) 0 →
    db ∈ Set.uIcc (target.gainDb.getD i 0) (target.gainDb.getD (i + 1) 0)

/-- A target is read: logarithms of positive numbers only, no division by zero, and a level on the
curve. -/
structure CurveRead (math : FirMath K) (target : FirTarget K) (frequencyHz : K) : Prop where
  logs : ∀ x ∈ logArguments target frequencyHz, 0 < x
  divisors : ∀ d ∈ logDivisors math target frequencyHz, d ≠ 0
  value : ∃ db, interpolateFirTargetDb math target frequencyHz = .ok db ∧
    OnCurve target frequencyHz db

/-- Between two breakpoints of which the lower is not positive. -/
def LowerNotPositive (target : FirTarget K) (frequencyHz : K) : Prop :=
  ∃ i, i + 1 < target.frequencyHz.length ∧ target.frequencyHz.getD i 0 ≤ 0 ∧
    target.frequencyHz.getD i 0 < frequencyHz ∧ frequencyHz < target.frequencyHz.getD (i + 1) 0

/-! ### The search -/

/-- In an ascending list, what is less than a value is what stands before its lower bound. -/
theorem lt_iff_lt_lowerBound {fs : List K} (hsorted : fs.Pairwise (· < ·)) (f : K) {i : ℕ}
    (hi : i < fs.length) : fs.getD i 0 < f ↔ i < (fs.takeWhile (· < f)).length := by
  induction fs generalizing i with
  | nil => exact absurd hi (Nat.not_lt_zero i)
  | cons x fs ih =>
    obtain ⟨hfirst, hrest⟩ := List.pairwise_cons.mp hsorted
    rw [List.takeWhile_cons]
    by_cases hx : x < f
    · rw [decide_eq_true hx, if_pos rfl, List.length_cons]
      cases i with
      | zero => simpa using hx
      | succ i =>
        rw [List.getD_cons_succ, ih hrest (Nat.lt_of_succ_lt_succ hi), Nat.succ_lt_succ_iff]
    · rw [decide_eq_false hx, if_neg Bool.false_ne_true, List.length_nil]
      refine iff_of_false (fun hlt => hx ?_) (Nat.not_lt_zero i)
      cases i with
      | zero => simpa using hlt
      | succ i =>
        rw [List.getD_cons_succ, List.getD_eq_getElem _ _ (Nat.lt_of_succ_lt_succ hi)] at hlt
        exact (hfirst _ (List.getElem_mem _)).trans hlt

/-- What is validated: as many gains as breakpoints, one at least, and the breakpoints ascending. -/
structure TargetValid (target : FirTarget K) : Prop where
  length_pos : 0 < target.frequencyHz.length
  length_eq : target.frequencyHz.length = target.gainDb.length
  sorted : target.frequencyHz.Pairwise (· < ·)

theorem validateTarget_iff (target : FirTarget K) :
    validateTarget target = .ok ⟨⟩ ↔ TargetValid target := by
  rw [validateTarget]
  split_ifs with hsize hchain
  · refine iff_of_false (by simp) fun hvalid => ?_
    rcases hsize with hnil | hlength
    · exact hvalid.length_pos.ne' (List.length_eq_zero_iff.mpr hnil)
    · exact hlength hvalid.length_eq
  · rw [not_or, not_not] at hsize
    exact iff_of_true rfl ⟨List.length_pos_of_ne_nil hsize.1, hsize.2,
      List.isChain_iff_pairwise.mp hchain⟩
  · exact iff_of_false (by simp) fun hvalid =>
      hchain (List.isChain_iff_pairwise.mpr hvalid.sorted)

omit [LinearOrder K] in
theorem getLastD_eq_getD (xs : List K) : xs.getLastD 0 = xs.getD (xs.length - 1) 0 := by
  rw [List.getLastD_eq_getLast?, List.getLast?_eq_getElem?, List.getD_eq_getElem?_getD]

section Bracket

variable {target : FirTarget K} {f : K}

section

variable (h : TargetValid target)

include h

/-- The breakpoints around a frequency inside the range. -/
theorem TargetValid.bracketed (hfront : target.frequencyHz.getD 0 0 < f)
    (hlast : f < target.frequencyHz.getD (target.frequencyHz.length - 1) 0) :
    ∃ i, i + 1 < target.frequencyHz.length ∧
      (target.frequencyHz.takeWhile (· < f)).length = i + 1 ∧
      target.frequencyHz.getD i 0 < f ∧ f ≤ target.frequencyHz.getD (i + 1) 0 := by
  have hlower := fun i => lt_iff_lt_lowerBound h.sorted f (i := i)
  have hpos := (hlower 0 h.length_pos).mp hfront
  obtain ⟨i, hi⟩ := Nat.exists_eq_succ_of_ne_zero hpos.ne'
  rw [Nat.succ_eq_add_one] at hi
  have hlen : i + 1 < target.frequencyHz.length := by
    have hend := h.length_pos
    have hstop := mt (hlower (target.frequencyHz.length - 1) (by omega)).mpr hlast.not_gt
    omega
  refine ⟨i, hlen, hi, (hlower i (by omega)).mpr (by omega), not_lt.mp fun hlt => ?_⟩
  have := (hlower (i + 1) hlen).mp hlt
  omega

/-- Which of its four answers `interpolateFirTargetDb` gives, and what it takes the logarithm of and
divides by. -/
inductive Reading (math : FirMath K) (target : FirTarget K) (f : K) : Prop
  | first (hle : f ≤ target.frequencyHz.getD 0 0)
      (hlogs : logArguments target f = []) (hdivisors : logDivisors math target f = [])
      (hdb : interpolateFirTargetDb math target f = .ok (target.gainDb.getD 0 0))
  | last (hle : target.frequencyHz.getD (target.frequencyHz.length - 1) 0 ≤ f)
      (hlogs : logArguments target f = []) (hdivisors : logDivisors math target f = [])
      (hdb : interpolateFirTargetDb math target f =
        .ok (target.gainDb.getD (target.frequencyHz.length - 1) 0))
  | breakpoint (i : ℕ) (hi : i < target.frequencyHz.length) (heq : target.frequencyHz.getD i 0 = f)
      (hlogs : logArguments target f = []) (hdivisors : logDivisors math target f = [])
      (hdb : interpolateFirTargetDb math target f = .ok (target.gainDb.getD i 0))
  | between (i : ℕ) (hi : i + 1 < target.frequencyHz.length)
      (hlo : target.frequencyHz.getD i 0 < f) (hhi : f < target.frequencyHz.getD (i + 1) 0)
      (hlogs : logArguments target f =
        [target.frequencyHz.getD i 0, target.frequencyHz.getD (i + 1) 0, f])
      (hdivisors : logDivisors math target f = [math.log10 (target.frequencyHz.getD (i + 1) 0) -
        math.log10 (target.frequencyHz.getD i 0)])
      (hdb : interpolateFirTargetDb math target f = .ok (target.gainDb.getD i 0 +
        (math.log10 f - math.log10 (target.frequencyHz.getD i 0)) /
          (math.log10 (target.frequencyHz.getD (i + 1) 0) -
            math.log10 (target.frequencyHz.getD i 0)) *
          (target.gainDb.getD (i + 1) 0 - target.gainDb.getD i 0)))

theorem TargetValid.reading (math : FirMath K) (f : K) :
    Reading math target f := by
  obtain ⟨fs, gs⟩ := target
  obtain ⟨front, rest, rfl⟩ : ∃ front rest, fs = front :: rest :=
    List.exists_cons_of_length_pos h.length_pos
  have hlength : (front :: rest).length = gs.length := h.length_eq
  have hlast := getLastD_eq_getD (front :: rest)
  have hgain := getLastD_eq_getD gs
  rw [← hlength] at hgain
  by_cases hbelow : f ≤ front
  · refine .first hbelow ?_ ?_ ?_
    · rw [logArguments]
      exact if_pos hbelow
    · rw [logDivisors]
      exact if_pos hbelow
    · rw [interpolateFirTargetDb]
      dsimp only
      rw [if_pos hbelow, List.headD_eq_getD]
  by_cases habove : (front :: rest).getLastD 0 ≤ f
  · refine .last (hlast.symm.trans_le habove) ?_ ?_ ?_
    · rw [logArguments]
      exact (if_neg hbelow).trans (if_pos habove)
    · rw [logDivisors]
      exact (if_neg hbelow).trans (if_pos habove)
    · rw [interpolateFirTargetDb]
      dsimp only
      rw [if_neg hbelow, if_pos habove, hgain]
  obtain ⟨i, hi, hcount, hlo, hhi⟩ := h.bracketed (not_le.mp hbelow)
    (lt_of_lt_of_eq (not_le.mp habove) hlast)
  dsimp only at hi hcount hlo hhi
  by_cases heq : (front :: rest).getD (i + 1) 0 = f
  · refine .breakpoint (i + 1) hi heq ?_ ?_ ?_
    · rw [logArguments]
      dsimp only
      rw [if_neg hbelow, if_neg habove, hcount, if_pos heq]
    · rw [logDivisors]
      dsimp only
      rw [if_neg hbelow, if_neg habove, hcount, if_pos heq]
    · rw [interpolateFirTargetDb]
      dsimp only
      rw [if_neg hbelow, if_neg habove, hcount, if_pos heq]
  · refine .between i hi hlo (lt_of_le_of_ne hhi (Ne.symm heq)) ?_ ?_ ?_
    · rw [logArguments]
      dsimp only
      rw [if_neg hbelow, if_neg habove, hcount, if_neg heq, Nat.add_sub_cancel]
    · rw [logDivisors]
      dsimp only
      rw [if_neg hbelow, if_neg habove, hcount, if_neg heq, Nat.add_sub_cancel]
    · rw [interpolateFirTargetDb]
      dsimp only
      rw [if_neg hbelow, if_neg habove, hcount, if_neg heq, Nat.add_sub_cancel]

theorem TargetValid.getD_lt_iff {i j : ℕ}
    (hi : i < target.frequencyHz.length) (hj : j < target.frequencyHz.length) :
    target.frequencyHz.getD i 0 < target.frequencyHz.getD j 0 ↔ i < j := by
  have hmono : ∀ {i j : ℕ}, i < j → j < target.frequencyHz.length →
      target.frequencyHz.getD i 0 < target.frequencyHz.getD j 0 := by
    intro i j hlt hj
    rw [List.getD_eq_getElem _ _ (hlt.trans hj), List.getD_eq_getElem _ _ hj]
    exact List.pairwise_iff_getElem.mp h.sorted i j (hlt.trans hj) hj hlt
  refine ⟨fun hlt => ?_, fun hlt => hmono hlt hj⟩
  by_contra hle
  rcases (Nat.le_of_not_lt hle).eq_or_lt with rfl | hgt
  · exact lt_irrefl _ hlt
  · exact lt_asymm hlt (hmono hgt hi)

theorem TargetValid.getD_le_iff {i j : ℕ}
    (hi : i < target.frequencyHz.length) (hj : j < target.frequencyHz.length) :
    target.frequencyHz.getD i 0 ≤ target.frequencyHz.getD j 0 ↔ i ≤ j := by
  rw [← not_lt, h.getD_lt_iff hj hi, not_lt]

end

end Bracket

/-! ### The curve -/

section Curve

variable [IsStrictOrderedRing K] {math : FirMath K} {target : FirTarget K} {f : K}

/-- Where the level is interpolated it is between the gains around it, whatever the logarithm is, as
long as it is increasing. -/
theorem interpolated_mem_uIcc {log10 : K → K} (hlog : StrictMonoOn log10 (Set.Ioi 0))
    {lo hi a b : K} (hpos : 0 < lo) (hlo : lo < f) (hhi : f < hi) :
    log10 hi - log10 lo ≠ 0 ∧
      a + (log10 f - log10 lo) / (log10 hi - log10 lo) * (b - a) ∈ Set.uIcc a b := by
  have hf : 0 < f := hpos.trans hlo
  have hleft : 0 < log10 f - log10 lo := sub_pos.mpr (hlog hpos hf hlo)
  have hright : 0 < log10 hi - log10 f := sub_pos.mpr (hlog hf (hf.trans hhi) hhi)
  have hwhole : 0 < log10 hi - log10 lo := by linarith
  refine ⟨hwhole.ne', PiecewiseLinear.add_mul_sub_mem_uIcc a b (div_pos hleft hwhole).le ?_⟩
  rw [div_le_one hwhole]
  linarith

theorem TargetValid.onCurve (h : TargetValid target) (hlog : StrictMonoOn math.log10 (Set.Ioi 0))
    (hlower : ¬ LowerNotPositive target f) {db : K}
    (hdb : interpolateFirTargetDb math target f = .ok db) : OnCurve target f db := by
  have hpos := h.length_pos
  have hend : target.frequencyHz.length - 1 < target.frequencyHz.length := by omega
  have hfirst : target.frequencyHz.headD 0 = target.frequencyHz.getD 0 0 := List.headD_eq_getD
  have hgain : target.gainDb.headD 0 = target.gainDb.getD 0 0 := List.headD_eq_getD
  have hlast := getLastD_eq_getD target.frequencyHz
  have hlastGain := getLastD_eq_getD target.gainDb
  rw [← h.length_eq] at hlastGain
  cases h.reading math f with
  | first hle _ _ hread =>
    obtain rfl : _ = db := Except.ok.inj (hread.symm.trans hdb)
    refine ⟨fun _ => hgain.symm, fun hge => ?_, fun i hi heq => ?_, fun i hi hlo _ => ?_⟩
    · have := (h.getD_le_iff hend hpos).mp ((hlast.symm.trans_le hge).trans hle)
      rw [hlastGain, Nat.le_zero.mp this]
    · have := (h.getD_le_iff hi hpos).mp (heq.trans_le hle)
      rw [Nat.le_zero.mp this]
    · have := (h.getD_lt_iff (by omega) hpos).mp (hlo.trans_le hle)
      omega
  | last hle _ _ hread =>
    obtain rfl : _ = db := Except.ok.inj (hread.symm.trans hdb)
    refine ⟨fun hge => ?_, fun _ => hlastGain.symm, fun i hi heq => ?_, fun i hi _ hhi => ?_⟩
    · have := (h.getD_le_iff hend hpos).mp (hle.trans (hge.trans_eq hfirst))
      rw [hgain, Nat.le_zero.mp this]
    · have := (h.getD_le_iff hend hi).mp (hle.trans_eq heq.symm)
      rw [show i = target.frequencyHz.length - 1 by omega]
    · have := (h.getD_lt_iff hend hi).mp (hle.trans_lt hhi)
      omega
  | breakpoint i hi heq _ _ hread =>
    obtain rfl : _ = db := Except.ok.inj (hread.symm.trans hdb)
    subst heq
    refine ⟨fun hle => ?_, fun hle => ?_, fun j hj heq => ?_, fun j hj hlo hhi => ?_⟩
    · have := (h.getD_le_iff hi hpos).mp (hle.trans_eq hfirst)
      rw [hgain, Nat.le_zero.mp this]
    · have := (h.getD_le_iff hend hi).mp (hlast.symm.trans_le hle)
      rw [hlastGain, show i = target.frequencyHz.length - 1 by omega]
    · have hle := (h.getD_le_iff hj hi).mp heq.le
      have hge := (h.getD_le_iff hi hj).mp heq.ge
      rw [Nat.le_antisymm hge hle]
    · have hleft := (h.getD_lt_iff (by omega) hi).mp hlo
      have hright := (h.getD_lt_iff hi hj).mp hhi
      omega
  | between i hi hlo hhi _ _ hread =>
    obtain rfl : _ = db := Except.ok.inj (hread.symm.trans hdb)
    refine ⟨fun hle => ?_, fun hle => ?_, fun j hj heq => ?_, fun j hj hlo' hhi' => ?_⟩
    · have := (h.getD_lt_iff (by omega) hpos).mp (hlo.trans_le (hle.trans_eq hfirst))
      omega
    · have := (h.getD_lt_iff hend hi).mp ((hlast.symm.trans_le hle).trans_lt hhi)
      omega
    · have hleft := (h.getD_lt_iff (by omega) hj).mp (hlo.trans_eq heq.symm)
      have hright := (h.getD_lt_iff hj hi).mp (heq.trans_lt hhi)
      omega
    · have hleft := (h.getD_lt_iff (by omega) hj).mp (hlo.trans hhi')
      have hright := (h.getD_lt_iff (by omega) hi).mp (hlo'.trans hhi)
      obtain rfl : j = i := by omega
      have hlower' : 0 < target.frequencyHz.getD j 0 := by
        by_contra hle
        exact hlower ⟨j, hi, not_lt.mp hle, hlo, hhi⟩
      exact (interpolated_mem_uIcc hlog hlower' hlo hhi).2

theorem TargetValid.logArguments_of_between (h : TargetValid target) (math : FirMath K) {i : ℕ}
    (hi : i + 1 < target.frequencyHz.length) (hlo : target.frequencyHz.getD i 0 < f)
    (hhi : f < target.frequencyHz.getD (i + 1) 0) :
    logArguments target f =
      [target.frequencyHz.getD i 0, target.frequencyHz.getD (i + 1) 0, f] := by
  have hpos := h.length_pos
  cases h.reading math f with
  | first hle _ _ _ =>
    have := (h.getD_lt_iff (by omega) hpos).mp (hlo.trans_le hle)
    omega
  | last hle _ _ _ =>
    have := (h.getD_lt_iff (by omega) hi).mp (hle.trans_lt hhi)
    omega
  | breakpoint j hj heq _ _ _ =>
    have hleft := (h.getD_lt_iff (by omega) hj).mp (hlo.trans_eq heq.symm)
    have hright := (h.getD_lt_iff hj hi).mp (heq.trans_lt hhi)
    omega
  | between j hj hlo' hhi' hlogs _ _ =>
    have hleft := (h.getD_lt_iff (by omega) hj).mp (hlo.trans hhi')
    have hright := (h.getD_lt_iff (by omega) hi).mp (hlo'.trans hhi)
    obtain rfl : j = i := by omega
    exact hlogs

theorem TargetValid.curveRead_iff (h : TargetValid target)
    (hlog : StrictMonoOn math.log10 (Set.Ioi 0)) :
    CurveRead math target f ↔ ¬ LowerNotPositive target f := by
  constructor
  · rintro hread ⟨i, hi, hle, hlo, hhi⟩
    have hlogs := hread.logs
    rw [h.logArguments_of_between math hi hlo hhi] at hlogs
    exact (hlogs _ List.mem_cons_self).not_ge hle
  · intro hlower
    cases h.reading math f with
    | first _ hlogs hdivisors hdb =>
      exact ⟨by simp [hlogs], by simp [hdivisors], _, hdb, h.onCurve hlog hlower hdb⟩
    | last _ hlogs hdivisors hdb =>
      exact ⟨by simp [hlogs], by simp [hdivisors], _, hdb, h.onCurve hlog hlower hdb⟩
    | breakpoint _ _ _ hlogs hdivisors hdb =>
      exact ⟨by simp [hlogs], by simp [hdivisors], _, hdb, h.onCurve hlog hlower hdb⟩
    | between i hi hlo hhi hlogs hdivisors hdb =>
      have hpos : 0 < target.frequencyHz.getD i 0 := by
        by_contra hle
        exact hlower ⟨i, hi, not_lt.mp hle, hlo, hhi⟩
      have hwhole := (interpolated_mem_uIcc (a := 0) (b := 0) hlog hpos hlo hhi).1
      refine ⟨?_, ?_, _, hdb, h.onCurve hlog hlower hdb⟩
      · rw [hlogs]
        intro x hx
        simp only [List.mem_cons, List.not_mem_nil, or_false] at hx
        rcases hx with rfl | rfl | rfl
        · exact hpos
        · exact (hpos.trans hlo).trans hhi
        · exact hpos.trans hlo
      · rw [hdivisors]
        simpa using hwhole

end Curve

/-! ### The real logarithm -/

theorem realFir_log10_strictMonoOn : StrictMonoOn realFir.log10 (Set.Ioi 0) := by
  intro x hx y _ hxy
  exact div_lt_div_of_pos_right (Real.log_lt_log hx hxy) (Real.log_pos (by norm_num))

/-- **Headline.** Of every target that is let through, at every frequency: logarithms of positive
numbers only, no division by zero and the level of the curve are had exactly if the frequency is not
between two neighbouring breakpoints of which the lower is not positive. -/
theorem interpolateFirTargetDb_reads (target : FirTarget ℝ) (frequencyHz : ℝ)
    (htarget : validateTarget target = .ok PUnit.unit.{1}) :
    CurveRead realFir target frequencyHz ↔ ¬ LowerNotPositive target frequencyHz :=
  ((validateTarget_iff target).mp htarget).curveRead_iff realFir_log10_strictMonoOn

/-- Two breakpoints, of which the lower is positive. -/
theorem interpolateFirTargetDb_reads_decade :
    CurveRead realFir ⟨[100, 1000], [0, 6]⟩ 300 := by
  refine (interpolateFirTargetDb_reads _ _ ?_).mpr ?_
  · rw [validateTarget_iff]
    exact ⟨by simp, by simp, by norm_num⟩
  · rintro ⟨i, hi, hle, -, -⟩
    obtain rfl : i = 0 := by simpa using hi
    norm_num at hle

/-- A breakpoint at zero: the logarithm of zero is taken. -/
theorem interpolateFirTargetDb_from_zero :
    ¬ ∀ (target : FirTarget ℝ) (frequencyHz : ℝ),
      validateTarget target = .ok PUnit.unit.{1} → 0 ≤ frequencyHz →
        CurveRead realFir target frequencyHz := by
  intro hall
  have hvalid : TargetValid (⟨[0, 100], [0, 6]⟩ : FirTarget ℝ) := ⟨by simp, by simp, by norm_num⟩
  have hread := hall _ 50 ((validateTarget_iff _).mpr hvalid) (by norm_num)
  have hlogs := hread.logs
  have harguments := hvalid.logArguments_of_between realFir (f := 50) (i := 0) (by simp)
    (by norm_num) (by norm_num)
  rw [harguments] at hlogs
  exact lt_irrefl 0 (hlogs 0 (by simp))

/-- Of a whole target: it is read at every frequency from zero on exactly if its first breakpoint is
positive, or none is. -/
theorem forall_curveRead_iff {target : FirTarget ℝ} (h : TargetValid target) :
    (∀ frequencyHz, 0 ≤ frequencyHz → CurveRead realFir target frequencyHz) ↔
      0 < target.frequencyHz.headD 0 ∨ target.frequencyHz.getLastD 0 ≤ 0 := by
  have hpos := h.length_pos
  have hend : target.frequencyHz.length - 1 < target.frequencyHz.length := by omega
  have hfirst : target.frequencyHz.headD 0 = target.frequencyHz.getD 0 0 := List.headD_eq_getD
  rw [hfirst, getLastD_eq_getD]
  have hread := fun f => h.curveRead_iff realFir_log10_strictMonoOn (f := f)
  simp only [hread]
  constructor
  · intro hall
    by_contra hspan
    rw [not_or, not_lt, not_le] at hspan
    have hexists : ∃ j, j < target.frequencyHz.length ∧ 0 < target.frequencyHz.getD j 0 :=
      ⟨_, hend, hspan.2⟩
    obtain ⟨hj, hjpos⟩ := Nat.find_spec hexists
    have hleast := fun k => Nat.find_min hexists (m := k)
    generalize Nat.find hexists = j at hj hjpos hleast
    cases j with
    | zero => exact absurd hjpos hspan.1.not_gt
    | succ i =>
      have hle : target.frequencyHz.getD i 0 ≤ 0 :=
        not_lt.mp fun hlt => hleast i (Nat.lt_succ_self i) ⟨by omega, hlt⟩
      exact hall (target.frequencyHz.getD (i + 1) 0 / 2) (half_pos hjpos).le
        ⟨i, hj, hle, hle.trans_lt (half_pos hjpos), half_lt_self hjpos⟩
  · rintro hspan f hf ⟨i, hi, hle, -, hhi⟩
    rcases hspan with hpositive | hnone
    · exact (hpositive.trans_le ((h.getD_le_iff hpos (by omega)).mpr (Nat.zero_le i))).not_ge hle
    · have hlast := (h.getD_le_iff hi hend).mpr (by omega)
      exact (hf.trans_lt hhi).not_ge (hlast.trans hnone)

theorem forall_curveRead_iff_from_hundred : CurveRead realFir ⟨[100, 200], [0, 6]⟩ 150 :=
  (forall_curveRead_iff ⟨by simp, by simp, by norm_num⟩).mpr (.inl (by simp)) 150 (by norm_num)

end Dsp

end RtaTool
