import Mathlib.Data.List.Basic
import Mathlib.Order.Basic

/-!
# Selecting from a ranking

The candidates of a ranking are taken in order, but for those that are close to one that is taken
already, until there are enough. What is left out has something close to it that ranks before it, or
there are enough that rank before it.

## Main definitions

* `greedySelect`

## Main results

* `greedySelect_sublist`, `length_greedySelect_le`, `pairwise_greedySelect` -- what is selected
* `greedySelect_maximal` -- why something is not
-/

namespace RtaTool

variable {α : Type*} (close : α → α → Bool) (limit : ℕ)

/-- The selection from a ranking, with what is taken already. -/
def greedySelect : List α → List α → List α
  | taken, [] => taken
  | taken, a :: ranking =>
    if taken.any (close a) then greedySelect taken ranking
    else if limit ≤ (taken ++ [a]).length then taken ++ [a]
    else greedySelect (taken ++ [a]) ranking

theorem prefix_greedySelect (taken ranking : List α) :
    taken <+: greedySelect close limit taken ranking := by
  induction ranking generalizing taken with
  | nil => exact List.prefix_rfl
  | cons a ranking ih =>
    rw [greedySelect]
    split_ifs with hclose henough
    · exact ih taken
    · exact List.prefix_append _ _
    · exact (List.prefix_append _ _).trans (ih _)

/-- The selection keeps the order of the ranking. -/
theorem greedySelect_sublist (taken ranking : List α) :
    (greedySelect close limit taken ranking).Sublist (taken ++ ranking) := by
  induction ranking generalizing taken with
  | nil => exact List.sublist_append_left _ _
  | cons a ranking ih =>
    rw [greedySelect]
    split_ifs with hclose henough
    · exact (ih taken).trans (List.sublist_cons_self a ranking |>.append_left taken)
    · exact (List.Sublist.cons_cons a (List.nil_sublist ranking)).append_left taken
    · have h := ih (taken ++ [a])
      rwa [List.append_assoc] at h

theorem length_greedySelect_le {taken : List α} (ranking : List α) (h : taken.length < limit) :
    (greedySelect close limit taken ranking).length ≤ limit := by
  induction ranking generalizing taken with
  | nil => exact Nat.le_of_lt h
  | cons a ranking ih =>
    rw [greedySelect]
    split_ifs with hclose henough
    · exact ih h
    · rw [List.length_append, List.length_singleton]
      exact h
    · exact ih (Nat.not_le.mp henough)

/-- No two that are selected are close. -/
theorem pairwise_greedySelect {taken : List α} (ranking : List α)
    (h : taken.Pairwise fun a b => close b a = false) :
    (greedySelect close limit taken ranking).Pairwise fun a b => close b a = false := by
  have hmore : ∀ {taken : List α} {a : α}, (taken.Pairwise fun a b => close b a = false) →
      taken.any (close a) = false → (taken ++ [a]).Pairwise fun a b => close b a = false := by
    intro taken a htaken hclose
    refine List.pairwise_append.mpr ⟨htaken, List.pairwise_singleton _ _, fun b hb c hc => ?_⟩
    obtain rfl := List.mem_singleton.mp hc
    exact Bool.eq_false_iff.mpr fun hyes => Bool.eq_false_iff.mp hclose
      (List.any_eq_true.mpr ⟨b, hb, hyes⟩)
  induction ranking generalizing taken with
  | nil => exact h
  | cons a ranking ih =>
    rw [greedySelect]
    split_ifs with hclose henough
    · exact ih h
    · exact hmore h (Bool.eq_false_iff.mpr hclose)
    · exact ih (hmore h (Bool.eq_false_iff.mpr hclose))

/-- **Headline.** What is not selected is close to something that ranks before it, or there are
enough that do. -/
theorem greedySelect_maximal {R : α → α → Prop} {taken ranking : List α}
    (hranked : (taken ++ ranking).Pairwise R) {a : α} (ha : a ∈ ranking) :
    a ∈ greedySelect close limit taken ranking ∨
      (∃ b ∈ greedySelect close limit taken ranking, close a b = true ∧ R b a) ∨
      limit ≤ (greedySelect close limit taken ranking).length ∧
        ∀ b ∈ greedySelect close limit taken ranking, R b a := by
  induction ranking generalizing taken with
  | nil => exact absurd ha List.not_mem_nil
  | cons c ranking ih =>
    have hbefore : ∀ b ∈ taken, ∀ d ∈ c :: ranking, R b d :=
      (List.pairwise_append.mp hranked).2.2
    have hafter : ∀ d ∈ ranking, R c d :=
      (List.pairwise_cons.mp (List.pairwise_append.mp hranked).2.1).1
    rw [greedySelect]
    split_ifs with hclose henough
    · have hrest : (taken ++ ranking).Pairwise R :=
        hranked.sublist ((List.sublist_cons_self c ranking).append_left taken)
      obtain rfl | ha := List.mem_cons.mp ha
      · obtain ⟨b, hb, hyes⟩ := List.any_eq_true.mp hclose
        exact .inr (.inl ⟨b, (prefix_greedySelect close limit taken ranking).subset hb, hyes,
          hbefore b hb _ List.mem_cons_self⟩)
      · exact ih hrest ha
    · obtain rfl | ha := List.mem_cons.mp ha
      · exact .inl (by simp)
      · refine .inr (.inr ⟨henough, fun b hb => ?_⟩)
        obtain hb | hb := List.mem_append.mp hb
        · exact hbefore b hb a (List.mem_cons_of_mem c ha)
        · rw [List.mem_singleton.mp hb]
          exact hafter a ha
    · obtain rfl | ha := List.mem_cons.mp ha
      · exact .inl ((prefix_greedySelect close limit _ ranking).subset (by simp))
      · refine ih ?_ ha
        rwa [List.append_assoc]

end RtaTool
