import Mathlib.Data.List.Induction
import Mathlib.Order.Bounds.Basic

/-!
# The first of the largest

A scan that keeps what it holds unless the next has a greater key. It ends with the first of those
whose key is the largest, and what it ends with is decided by how the keys compare.

## Main definitions

* `firstMax`

## Main results

* `firstMax_eq_some` -- the scan of a list that is not empty ends with one of the largest
* `firstMax_congr` -- keys that compare alike have one scan
* `isGreatest_foldl_max` -- what a running maximum ends with
* `head?_mergeSort` -- a stable sort by the key, the largest first, begins with it
-/

namespace RtaTool

variable {α K : Type*} [LinearOrder K]

/-- What the scan holds after the next. -/
def keepGreater (key : α → K) : Option α → α → Option α
  | none, a => some a
  | some held, a => if key held < key a then some a else some held

/-- The first of the largest. -/
def firstMax (key : α → K) (l : List α) : Option α := l.foldl (keepGreater key) none

section

variable (key : α → K)

theorem firstMax_append_singleton (l : List α) (a : α) :
    firstMax key (l ++ [a]) = keepGreater key (firstMax key l) a := by
  rw [firstMax, List.foldl_append]
  rfl

/-- The scan of a list that is not empty ends with one of the largest. -/
theorem firstMax_eq_some {l : List α} (hl : l ≠ []) :
    ∃ a ∈ l, firstMax key l = some a ∧ ∀ b ∈ l, key b ≤ key a := by
  induction l using List.reverseRecOn with
  | nil => exact absurd rfl hl
  | append_singleton l a ih =>
    rw [firstMax_append_singleton]
    obtain rfl | hne := eq_or_ne l []
    · refine ⟨a, by simp, rfl, fun b hb => ?_⟩
      rw [List.mem_singleton.mp hb]
    · obtain ⟨held, hmem, heq, hmax⟩ := ih hne
      rw [heq, keepGreater]
      split_ifs with hlt
      · refine ⟨a, by simp, rfl, fun b hb => ?_⟩
        obtain hb | hb := List.mem_append.mp hb
        · exact (hmax b hb).trans hlt.le
        · rw [List.mem_singleton.mp hb]
      · refine ⟨held, List.mem_append_left _ hmem, rfl, fun b hb => ?_⟩
        obtain hb | hb := List.mem_append.mp hb
        · exact hmax b hb
        · rw [List.mem_singleton.mp hb]
          exact not_lt.mp hlt

theorem mem_of_firstMax {key : α → K} {l : List α} {a : α} (h : firstMax key l = some a) :
    a ∈ l ∧ ∀ b ∈ l, key b ≤ key a := by
  have hl : l ≠ [] := by
    rintro rfl
    cases h
  obtain ⟨b, hmem, heq, hmax⟩ := firstMax_eq_some key hl
  rw [heq] at h
  exact Option.some.inj h ▸ ⟨hmem, hmax⟩

/-- Keys that compare alike have one scan. -/
theorem firstMax_congr {key key' : α → K} {l : List α}
    (h : ∀ a ∈ l, ∀ b ∈ l, key a < key b ↔ key' a < key' b) : firstMax key l = firstMax key' l := by
  induction l using List.reverseRecOn with
  | nil => rfl
  | append_singleton l a ih =>
    have hbefore := ih fun b hb c hc =>
      h b (List.mem_append_left _ hb) c (List.mem_append_left _ hc)
    rw [firstMax_append_singleton, firstMax_append_singleton, ← hbefore]
    cases hheld : firstMax key l with
    | none => rfl
    | some held =>
      have hmem := (mem_of_firstMax hheld).1
      have hlast := h held (List.mem_append_left _ hmem) a (by simp)
      simp only [keepGreater, hlast]

theorem firstMax_map {β : Type*} (key : β → K) (f : α → β) (l : List α) :
    firstMax key (l.map f) = (firstMax (key ∘ f) l).map f := by
  induction l using List.reverseRecOn with
  | nil => rfl
  | append_singleton l a ih =>
    rw [List.map_append, List.map_singleton, firstMax_append_singleton, firstMax_append_singleton,
      ih]
    cases firstMax (key ∘ f) l with
    | none => rfl
    | some held =>
      simp only [Option.map_some, keepGreater, Function.comp_apply]
      split_ifs <;> rfl

/-! ### A stable sort -/

theorem firstMax_cons (a : α) (l : List α) :
    firstMax key (a :: l) =
      match firstMax key l with
      | none => some a
      | some m => if key a < key m then some m else some a := by
  induction l using List.reverseRecOn with
  | nil => rfl
  | append_singleton l b ih =>
    rw [← List.cons_append, firstMax_append_singleton, firstMax_append_singleton, ih]
    cases firstMax key l with
    | none => rfl
    | some m =>
      by_cases hmb : key m < key b
      · by_cases ham : key a < key m
        · simp [keepGreater, hmb, ham, ham.trans hmb]
        · simp [keepGreater, hmb, ham]
      · by_cases ham : key a < key m
        · simp [keepGreater, hmb, ham]
        · have hab : ¬ key a < key b := not_lt.mpr ((not_lt.mp hmb).trans (not_lt.mp ham))
          simp [keepGreater, hmb, ham, hab]

theorem keyOrder_trans (a b c : α) (hab : decide (key b ≤ key a) = true)
    (hbc : decide (key c ≤ key b) = true) : decide (key c ≤ key a) = true :=
  decide_eq_true ((of_decide_eq_true hbc).trans (of_decide_eq_true hab))

theorem keyOrder_total (a b : α) :
    (decide (key b ≤ key a) || decide (key a ≤ key b)) = true := by
  rw [Bool.or_eq_true, decide_eq_true_iff, decide_eq_true_iff]
  exact le_total _ _

theorem pairwise_mergeSort_key (l : List α) :
    (l.mergeSort fun a b => decide (key b ≤ key a)).Pairwise fun a b => key b ≤ key a :=
  (List.pairwise_mergeSort (keyOrder_trans key) (keyOrder_total key) l).imp of_decide_eq_true

/-- A stable sort by the key, the largest first, begins with the first of the largest. -/
theorem head?_mergeSort (l : List α) :
    (l.mergeSort fun a b => decide (key b ≤ key a)).head? = firstMax key l := by
  induction l with
  | nil =>
    rw [List.mergeSort_nil]
    rfl
  | cons a l ih =>
    obtain ⟨before, after, hcons, hsort, hbefore⟩ :=
      List.mergeSort_cons (keyOrder_trans key) (keyOrder_total key) a l
    rw [firstMax_cons, ← ih, hcons, hsort]
    cases before with
    | cons b before =>
      have hlt : key a < key b := by
        have hb := hbefore b List.mem_cons_self
        rwa [Bool.not_eq_true', decide_eq_false_iff_not, not_le] at hb
      simp [hlt]
    | nil =>
      have hsorted := pairwise_mergeSort_key key (a :: l)
      rw [hcons] at hsorted
      cases after with
      | nil => rfl
      | cons m after =>
        have hle := List.rel_of_pairwise_cons hsorted List.mem_cons_self
        simp [hle.not_gt]

/-- A running maximum ends with the greatest of what it has seen. -/
theorem isGreatest_foldl_max (l : List α) (start : K) :
    IsGreatest {v | v = start ∨ ∃ a ∈ l, v = key a}
      (l.foldl (fun held a => max held (key a)) start) := by
  induction l using List.reverseRecOn with
  | nil =>
    refine ⟨.inl rfl, ?_⟩
    rintro v (rfl | ⟨a, ha, -⟩)
    · exact le_rfl
    · exact absurd ha List.not_mem_nil
  | append_singleton l a ih =>
    obtain ⟨hmem, hbound⟩ := ih
    rw [List.foldl_append, List.foldl_cons, List.foldl_nil]
    refine ⟨?_, ?_⟩
    · obtain hle | hle := le_total (key a) (l.foldl (fun held a => max held (key a)) start)
      · rw [max_eq_left hle]
        exact hmem.imp id fun ⟨b, hb, heq⟩ => ⟨b, List.mem_append_left _ hb, heq⟩
      · rw [max_eq_right hle]
        exact .inr ⟨a, by simp, rfl⟩
    · rintro v (rfl | ⟨b, hb, rfl⟩)
      · exact (hbound (.inl rfl)).trans (le_max_left _ _)
      · obtain hb | hb := List.mem_append.mp hb
        · exact (hbound (.inr ⟨b, hb, rfl⟩)).trans (le_max_left _ _)
        · rw [List.mem_singleton.mp hb]
          exact le_max_right _ _

end

end RtaTool
