import Mathlib.Data.List.Count

/-!
# Ranks of a sorted list

A list that is sorted by a rank, and how many of its elements are below one. The element at an index
is found by counting: it is below a rank exactly when more elements than the index are.

## Main results

* `countP_lt_le_iff` -- **The element at an index, by counting.**
* `countP_lt_succ` -- the counts add up
-/

namespace RtaTool

variable {α : Type*} {rank : α → ℕ}

theorem countP_lt_succ (rank : α → ℕ) (l : List α) (r : ℕ) :
    l.countP (fun a => decide (rank a < r + 1)) =
      l.countP (fun a => decide (rank a < r)) + l.countP fun a => decide (rank a = r) := by
  induction l with
  | nil => rfl
  | cons a l ih =>
    simp only [List.countP_cons, ih, decide_eq_true_eq]
    split_ifs <;> omega

theorem countP_lt_le_mul (l : List α) {m : ℕ}
    (h : ∀ r, l.countP (fun a => decide (rank a = r)) ≤ m) (r : ℕ) :
    l.countP (fun a => decide (rank a < r)) ≤ r * m := by
  induction r with
  | zero => simp
  | succ r ih =>
    rw [countP_lt_succ, Nat.succ_mul]
    exact Nat.add_le_add ih (h r)

/-- At most `k` elements are below a rank exactly when the one at the index `k` is not. -/
theorem countP_lt_le_iff {l : List α} (h : l.Pairwise fun a b => rank a ≤ rank b) {k : ℕ}
    (hk : k < l.length) (r : ℕ) :
    l.countP (fun a => decide (rank a < r)) ≤ k ↔ r ≤ rank l[k] := by
  rw [← List.take_append_drop k l] at h
  have hcross := (List.pairwise_append.mp h).2.2
  have hmem : l[k] ∈ l.drop k := by
    rw [List.drop_eq_getElem_cons hk]
    exact List.mem_cons_self
  have hsplit : l.countP (fun a => decide (rank a < r)) =
      (l.take k).countP (fun a => decide (rank a < r)) +
        (l.drop k).countP fun a => decide (rank a < r) := by
    rw [← List.countP_append, List.take_append_drop]
  have htake : (l.take k).length = k := List.length_take_of_le (Nat.le_of_lt hk)
  constructor
  · intro hle
    by_contra hlt
    -- everything up to the index is below, and the element itself
    have hall : (l.take k).countP (fun a => decide (rank a < r)) = (l.take k).length := by
      rw [List.countP_eq_length]
      intro a ha
      have hrank := hcross a ha _ hmem
      simp only [decide_eq_true_eq]
      omega
    have hone : 0 < (l.drop k).countP fun a => decide (rank a < r) := by
      rw [List.countP_pos_iff]
      exact ⟨l[k], hmem, by simpa using hlt⟩
    omega
  · intro hge
    have hnone : (l.drop k).countP (fun a => decide (rank a < r)) = 0 := by
      rw [List.countP_eq_zero]
      intro a ha
      rw [List.drop_eq_getElem_cons hk, List.mem_cons] at ha
      have hdrop := (List.pairwise_append.mp h).2.1
      rw [List.drop_eq_getElem_cons hk, List.pairwise_cons] at hdrop
      have hrank : rank l[k] ≤ rank a := by
        rcases ha with rfl | ha
        · exact Nat.le_refl _
        · exact hdrop.1 a ha
      simp only [decide_eq_true_eq]
      omega
    have hle : (l.take k).countP (fun a => decide (rank a < r)) ≤ (l.take k).length :=
      List.countP_le_length
    omega

end RtaTool
