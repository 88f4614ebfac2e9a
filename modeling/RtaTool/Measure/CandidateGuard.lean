import Mathlib.Data.List.Sort
import RtaTool.Measure.CycleArrival

/-!
# Which candidate is chosen

`candidateWithinGuard` looks for the nearest candidate in the order it is given and for the spacing
in a sorted copy. A candidate within a quarter of every spacing is three times as near as any other,
so there is one at most, and no order matters.

## Main definitions

* `WithinQuarter` -- within a quarter of the spacing, or of what is known of it

## Main results

* `nearestCandidate_spec`, `smallestGap_le`, `smallestGap_attained`
* `WithinQuarter.nearest` -- such a candidate is the nearest, and alone
* `candidateWithinGuard_eq_some_iff` -- when a candidate is the answer
* `candidateWithinGuard_spec` -- **Headline.** The answer, for candidates in any order
-/

namespace RtaTool

/-- A candidate is within a quarter of the spacing of any two candidates of the target; of one
candidate, within a quarter of the range and itself. -/
def WithinQuarter (candidates : List ℚ) (target range c : ℚ) : Prop :=
  if candidates.length < 2 then |c - target| ≤ (range + |c|) / 4
  else ∀ a ∈ candidates, ∀ b ∈ candidates, a ≠ b → |c - target| ≤ |a - b| / 4

/-! ### The nearest -/

/-- The scan ends with a candidate, and none is nearer. -/
theorem nearestCandidate_spec (target front : ℚ) (candidates : List ℚ) :
    nearestCandidate target front candidates ∈ front :: candidates ∧
      ∀ c ∈ front :: candidates,
        |nearestCandidate target front candidates - target| ≤ |c - target| := by
  induction candidates generalizing front with
  | nil => simp [nearestCandidate]
  | cons x candidates ih =>
    have hstep : nearestCandidate target front (x :: candidates) =
        nearestCandidate target (if |x - target| < |front - target| then x else front)
          candidates := rfl
    obtain ⟨hmem, hle⟩ := ih (if |x - target| < |front - target| then x else front)
    rw [hstep]
    generalize nearestCandidate target _ candidates = best at hmem hle
    have hkept := hle _ List.mem_cons_self
    constructor
    · rcases List.mem_cons.mp hmem with heq | hmem
      · split_ifs at heq
        · simp [heq]
        · simp [heq]
      · simp [hmem]
    · intro c hc
      rcases List.mem_cons.mp hc with rfl | hc
      · split_ifs at hkept with hlt
        · exact hkept.trans hlt.le
        · exact hkept
      rcases List.mem_cons.mp hc with rfl | hc
      · split_ifs at hkept with hlt
        · exact hkept
        · exact hkept.trans (not_lt.mp hlt)
      · exact hle c (List.mem_cons_of_mem _ hc)

/-! ### The spacing -/

theorem smallestGap_le_acc (acc : ℚ) (sorted : List ℚ) : smallestGap acc sorted ≤ acc := by
  induction acc, sorted using smallestGap.induct with
  | case1 acc x y rest ih =>
    rw [smallestGap]
    exact ih.trans (min_le_left _ _)
  | case2 sorted acc hshort => rw [smallestGap.eq_2 acc sorted hshort]

/-- No two candidates are closer. -/
theorem smallestGap_le {acc : ℚ} {sorted : List ℚ} (hsorted : sorted.Pairwise (· < ·)) {a b : ℚ}
    (ha : a ∈ sorted) (hb : b ∈ sorted) (hlt : a < b) : smallestGap acc sorted ≤ b - a := by
  induction acc, sorted using smallestGap.induct with
  | case1 acc x y rest ih =>
    obtain ⟨hfirst, hrest⟩ := List.pairwise_cons.mp hsorted
    rw [smallestGap]
    rcases List.mem_cons.mp ha with rfl | hay
    · have hby : b ∈ y :: rest := (List.mem_cons.mp hb).resolve_left hlt.ne'
      have hle : y ≤ b := by
        rcases List.mem_cons.mp hby with rfl | hmem
        · exact le_rfl
        · exact ((List.pairwise_cons.mp hrest).1 b hmem).le
      have hgap := (smallestGap_le_acc (min acc (y - a)) (y :: rest)).trans (min_le_right _ _)
      linarith
    · rcases List.mem_cons.mp hb with rfl | hby
      · exact absurd (hfirst a hay) hlt.not_gt
      · exact ih hrest hay hby
  | case2 sorted acc hshort =>
    -- one candidate at most
    obtain _ | ⟨x, _ | ⟨y, rest⟩⟩ := sorted
    · exact absurd ha List.not_mem_nil
    · rw [List.mem_singleton.mp ha, List.mem_singleton.mp hb] at hlt
      exact absurd hlt (lt_irrefl x)
    · exact (hshort x y rest rfl).elim

/-- The spacing is that of two of them. -/
theorem smallestGap_attained (acc : ℚ) {sorted : List ℚ} (hsorted : sorted.Pairwise (· < ·)) :
    smallestGap acc sorted = acc ∨
      ∃ a ∈ sorted, ∃ b ∈ sorted, a < b ∧ smallestGap acc sorted = b - a := by
  induction acc, sorted using smallestGap.induct with
  | case1 acc x y rest ih =>
    obtain ⟨hfirst, hrest⟩ := List.pairwise_cons.mp hsorted
    rw [smallestGap]
    rcases ih hrest with heq | ⟨a, ha, b, hb, hlt, heq⟩
    · rcases min_choice acc (y - x) with hacc | hgap
      · exact .inl (heq.trans hacc)
      · exact .inr ⟨x, by simp, y, by simp, hfirst y (by simp), heq.trans hgap⟩
    · exact .inr ⟨a, List.mem_cons_of_mem _ ha, b, List.mem_cons_of_mem _ hb, hlt, heq⟩
  | case2 sorted acc hshort => exact .inl (smallestGap.eq_2 acc sorted hshort)

/-! ### The answer -/

section Answer

variable {candidates : List ℚ} {target range c : ℚ}

theorem withinQuarter_perm {candidates' : List ℚ} (hperm : candidates'.Perm candidates) :
    WithinQuarter candidates' target range c ↔ WithinQuarter candidates target range c := by
  simp only [WithinQuarter, hperm.length_eq, hperm.mem_iff]

/-- A candidate within a quarter of the spacing is nearer than every other. -/
theorem WithinQuarter.nearest (h : WithinQuarter candidates target range c) (hc : c ∈ candidates)
    {b : ℚ} (hb : b ∈ candidates) (hne : b ≠ c) : |c - target| < |b - target| := by
  have hlong : ¬ candidates.length < 2 := by
    intro hshort
    obtain ⟨only, rfl⟩ : ∃ only, candidates = [only] :=
      List.length_eq_one_iff.mp (Nat.le_antisymm (Nat.lt_succ_iff.mp hshort)
        (List.length_pos_of_mem hc))
    exact hne ((List.mem_singleton.mp hb).trans (List.mem_singleton.mp hc).symm)
  rw [WithinQuarter, if_neg hlong] at h
  have hquarter := h b hb c hc hne
  have hapart : 0 < |b - c| := abs_pos.mpr (sub_ne_zero.mpr hne)
  have htriangle := abs_sub_le b target c
  rw [abs_sub_comm target c] at htriangle
  linarith

theorem pairwise_lt_mergeSort (hnodup : candidates.Nodup) :
    (candidates.mergeSort (· ≤ ·)).Pairwise (· < ·) := by
  have hsorted := List.pairwise_mergeSort' (· ≤ ·) candidates
  have hdistinct : (candidates.mergeSort (· ≤ ·)).Nodup :=
    (List.mergeSort_perm candidates _).nodup_iff.mpr hnodup
  exact hsorted.imp₂ (fun a b hle hne => lt_of_le_of_ne hle hne) hdistinct

theorem exists_spacing {front second : ℚ} {rest : List ℚ}
    (hnodup : (front :: second :: rest).Nodup) (target range : ℚ) :
    ∃ spacing, candidateWithinGuard (front :: second :: rest) target range =
        (if |nearestCandidate target front (front :: second :: rest) - target| ≤ spacing / 4 then
          some (nearestCandidate target front (front :: second :: rest)) else none) ∧
      (∀ a ∈ front :: second :: rest, ∀ b ∈ front :: second :: rest, a ≠ b →
        spacing ≤ |a - b|) ∧
      ∃ a ∈ front :: second :: rest, ∃ b ∈ front :: second :: rest, a ≠ b ∧
        spacing = |a - b| := by
  have hperm := List.mergeSort_perm (front :: second :: rest) (· ≤ ·)
  have hsorted := pairwise_lt_mergeSort hnodup
  rw [candidateWithinGuard.eq_def]
  dsimp only
  generalize (front :: second :: rest).mergeSort (· ≤ ·) = sorted at hperm hsorted
  obtain _ | ⟨x, _ | ⟨y, tail⟩⟩ := sorted
  · exact absurd hperm.length_eq (by simp)
  · exact absurd hperm.length_eq (by simp)
  have hxy : x < y := (List.pairwise_cons.mp hsorted).1 y List.mem_cons_self
  have hgap : smallestGap (y - x) (x :: y :: tail) = smallestGap (y - x) (y :: tail) := by
    rw [smallestGap, min_self]
  have hattained : ∃ a ∈ x :: y :: tail, ∃ b ∈ x :: y :: tail, a < b ∧
      smallestGap (y - x) (y :: tail) = b - a := by
    rw [← hgap]
    rcases smallestGap_attained (y - x) hsorted with heq | hpair
    · exact ⟨x, by simp, y, by simp, hxy, heq⟩
    · exact hpair
  obtain ⟨a, ha, b, hb, hab, heq⟩ := hattained
  refine ⟨smallestGap (y - x) (y :: tail), ?_, ?_, ?_⟩
  · dsimp only
    rw [if_neg (not_not.mpr (heq ▸ sub_pos.mpr hab))]
  · intro u hu v hv hne
    rw [← hgap]
    rcases hne.lt_or_gt with hlt | hgt
    · rw [abs_sub_comm, abs_of_pos (sub_pos.mpr hlt)]
      exact smallestGap_le hsorted (hperm.mem_iff.mpr hu) (hperm.mem_iff.mpr hv) hlt
    · rw [abs_of_pos (sub_pos.mpr hgt)]
      exact smallestGap_le hsorted (hperm.mem_iff.mpr hv) (hperm.mem_iff.mpr hu) hgt
  · refine ⟨b, hperm.mem_iff.mp hb, a, hperm.mem_iff.mp ha, hab.ne', ?_⟩
    rw [heq, abs_of_pos (sub_pos.mpr hab)]

/-- A candidate is the answer exactly if it is within the guard, and a single one only in a range
that is not empty. -/
theorem candidateWithinGuard_eq_some_iff (hnodup : candidates.Nodup) (target range c : ℚ) :
    candidateWithinGuard candidates target range = some c ↔
      c ∈ candidates ∧ WithinQuarter candidates target range c ∧
        (candidates.length < 2 → 0 < range) := by
  obtain _ | ⟨front, _ | ⟨second, rest⟩⟩ := candidates
  · simp [candidateWithinGuard]
  · have hone : [front].length < 2 := by simp
    rw [candidateWithinGuard, WithinQuarter, if_pos hone, List.mem_singleton]
    by_cases hrange : 0 < range
    · rw [if_neg (not_not.mpr hrange)]
      split_ifs with hle
      · rw [Option.some.injEq]
        exact ⟨fun h => ⟨h.symm, h ▸ hle, fun _ => hrange⟩, fun h => h.1.symm⟩
      · refine iff_of_false (by simp) ?_
        rintro ⟨rfl, hquarter, -⟩
        exact hle hquarter
    · rw [if_pos hrange]
      exact iff_of_false (by simp) fun h => hrange (h.2.2 hone)
  · have hlong : ¬ (front :: second :: rest).length < 2 := by simp
    obtain ⟨spacing, heq, hle, a, ha, b, hb, hne, hattained⟩ := exists_spacing hnodup target range
    obtain ⟨hmem, hnearest⟩ := nearestCandidate_spec target front (front :: second :: rest)
    have hbest : nearestCandidate target front (front :: second :: rest) ∈
        front :: second :: rest := by
      rcases List.mem_cons.mp hmem with hfront | hmem
      · rw [hfront]
        exact List.mem_cons_self
      · exact hmem
    have hquarter : ∀ {c}, WithinQuarter (front :: second :: rest) target range c ↔
        |c - target| ≤ spacing / 4 := by
      intro c
      rw [WithinQuarter, if_neg hlong]
      constructor
      · intro hall
        rw [hattained]
        exact hall a ha b hb hne
      · intro hguard u hu v hv huv
        have hspacing := hle u hu v hv huv
        linarith
    rw [heq]
    constructor
    · intro hsome
      obtain ⟨hguard, hc⟩ := Option.ite_none_right_eq_some.mp hsome
      obtain rfl := Option.some.inj hc
      exact ⟨hbest, hquarter.mpr hguard, fun hshort => absurd hshort hlong⟩
    · rintro ⟨hc, hguard, -⟩
      have hcbest : nearestCandidate target front (front :: second :: rest) = c := by
        by_contra hother
        exact (hguard.nearest hc hbest hother).not_ge (hnearest c (List.mem_cons_of_mem _ hc))
      rw [hcbest, if_pos (hquarter.mp hguard)]

/-- **Headline.** Of pairwise distinct candidates: their order does not matter; an answer is the
nearest of them, alone, and within the guard; and there is one exactly if some candidate is within
the guard, and a single one in a range that is not empty. -/
theorem candidateWithinGuard_spec (hnodup : candidates.Nodup) (target range : ℚ) :
    (∀ candidates' : List ℚ, candidates'.Perm candidates →
        candidateWithinGuard candidates' target range =
          candidateWithinGuard candidates target range) ∧
      (∀ c, candidateWithinGuard candidates target range = some c →
        c ∈ candidates ∧ (∀ b ∈ candidates, b ≠ c → |c - target| < |b - target|) ∧
          WithinQuarter candidates target range c) ∧
      ((candidateWithinGuard candidates target range).isSome ↔
        (∃ c ∈ candidates, WithinQuarter candidates target range c) ∧
          (candidates.length < 2 → 0 < range)) := by
  have hanswer := candidateWithinGuard_eq_some_iff hnodup target range
  refine ⟨fun candidates' hperm => ?_, fun c hc => ?_, ?_⟩
  · refine Option.ext fun c => ?_
    rw [candidateWithinGuard_eq_some_iff (hperm.nodup_iff.mpr hnodup), hanswer,
      withinQuarter_perm hperm, hperm.mem_iff, hperm.length_eq]
  · obtain ⟨hmem, hguard, -⟩ := (hanswer c).mp hc
    exact ⟨hmem, fun b hb hne => hguard.nearest hmem hb hne, hguard⟩
  · rw [Option.isSome_iff_exists]
    constructor
    · rintro ⟨c, hc⟩
      obtain ⟨hmem, hguard, hrange⟩ := (hanswer c).mp hc
      exact ⟨⟨c, hmem, hguard⟩, hrange⟩
    · rintro ⟨⟨c, hmem, hguard⟩, hrange⟩
      exact ⟨c, (hanswer c).mpr ⟨hmem, hguard, hrange⟩⟩

/-- Three candidates ten apart, and a target two beyond the middle one. -/
theorem candidateWithinGuard_spec_three :
    candidateWithinGuard [0, 10, 20] 12 0 = candidateWithinGuard [20, 0, 10] 12 0 ∧
      (candidateWithinGuard [20, 0, 10] 12 0).isSome := by
  have hnodup : ([20, 0, 10] : List ℚ).Nodup := by decide
  obtain ⟨horder, -, hsome⟩ := candidateWithinGuard_spec hnodup 12 0
  refine ⟨horder _ (by decide), hsome.mpr ⟨⟨10, by simp, ?_⟩, by simp⟩⟩
  rw [WithinQuarter, if_neg (by simp)]
  intro a ha b hb hne
  simp only [List.mem_cons, List.not_mem_nil, or_false] at ha hb
  rcases ha with rfl | rfl | rfl <;> rcases hb with rfl | rfl | rfl <;>
    first | exact absurd rfl hne | norm_num [abs_of_pos, abs_of_neg]

/-- A single candidate at the target, and no range. -/
theorem candidateWithinGuard_no_range :
    ¬ ∀ (candidates : List ℚ) (target range : ℚ), candidates.Nodup →
      (∃ c ∈ candidates, WithinQuarter candidates target range c) →
      (candidateWithinGuard candidates target range).isSome := by
  intro hall
  have hsome := hall [1] 1 0 (by simp) ⟨1, by simp, by simp [WithinQuarter]⟩
  exact absurd hsome (by decide +kernel)

end Answer

end RtaTool
