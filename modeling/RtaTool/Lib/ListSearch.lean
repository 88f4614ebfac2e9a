import Mathlib.Data.List.Basic

/-!
# Searching a list

The place of the first occurrence of a pattern in a list, and of the last one of an element, with
the parts of the list before and after it.

## Main definitions

* `findFirst`, `findLast`

## Main results

* `eq_of_findFirst`, `findFirst_cons_of_ne` -- the list around the first occurrence of a pattern
* `eq_of_findLast`, `findLast_append` -- the list around the last occurrence of an element
-/

namespace RtaTool

namespace ListSearch

variable {α : Type*} [DecidableEq α]

/-- Where `pattern` first occurs. -/
def findFirst (pattern : List α) : List α → Option ℕ
  | [] => if pattern = [] then some 0 else none
  | x :: xs => if pattern <+: x :: xs then some 0 else (findFirst pattern xs).map (· + 1)

/-- Where `y` last occurs. -/
def findLast (y : α) : List α → Option ℕ
  | [] => none
  | x :: xs =>
    match findLast y xs with
    | some i => some (i + 1)
    | none => if x = y then some 0 else none

/-- What stands at the place found is the pattern. -/
theorem eq_of_findFirst {pattern xs : List α} {i : ℕ} (h : findFirst pattern xs = some i) :
    xs = xs.take i ++ pattern ++ xs.drop (i + pattern.length) := by
  induction xs generalizing i with
  | nil =>
    rw [findFirst] at h
    split_ifs at h with hnil
    obtain rfl := Option.some.inj h
    simp [hnil]
  | cons x xs ih =>
    rw [findFirst] at h
    split_ifs at h with hprefix
    · obtain rfl := Option.some.inj h
      obtain ⟨rest, hrest⟩ := hprefix
      rw [← hrest]
      simp
    · obtain ⟨j, hj, rfl⟩ := Option.map_eq_some_iff.mp h
      rw [Nat.add_right_comm, List.take_succ_cons, List.drop_succ_cons, List.cons_append,
        List.cons_append, ← ih hj]

theorem findFirst_cons_of_ne {p x : α} (pattern xs : List α) (h : p ≠ x) :
    findFirst (p :: pattern) (x :: xs) = (findFirst (p :: pattern) xs).map (· + 1) := by
  rw [findFirst, if_neg]
  rintro ⟨rest, hrest⟩
  exact h (List.cons.inj hrest).1

theorem findFirst_prefix (pattern : List α) (xs : List α) :
    findFirst pattern (pattern ++ xs) = some 0 := by
  rcases hsplit : pattern ++ xs with _ | ⟨y, ys⟩
  · rw [findFirst, if_pos (List.append_eq_nil_iff.mp hsplit).1]
  · rw [findFirst, if_pos ⟨xs, hsplit⟩]

theorem findLast_eq_none {y : α} {xs : List α} : findLast y xs = none ↔ y ∉ xs := by
  induction xs with
  | nil => simp [findLast]
  | cons x xs ih =>
    rw [findLast]
    rcases hfind : findLast y xs with _ | i
    · have hnot := ih.mp hfind
      simp [hnot, eq_comm]
    · have hmem : y ∈ xs := by
        by_contra hnot
        rw [ih.mpr hnot] at hfind
        cases hfind
      simp [hmem]

/-- Around the last occurrence the list is split, and it does not occur after it. -/
theorem eq_of_findLast {y : α} {xs : List α} {i : ℕ} (h : findLast y xs = some i) :
    xs = xs.take i ++ y :: xs.drop (i + 1) ∧ y ∉ xs.drop (i + 1) := by
  induction xs generalizing i with
  | nil => cases h
  | cons x xs ih =>
    rw [findLast] at h
    rcases hfind : findLast y xs with _ | j
    · rw [hfind] at h
      dsimp only at h
      split_ifs at h with hxy
      obtain rfl := Option.some.inj h
      subst hxy
      exact ⟨rfl, findLast_eq_none.mp hfind⟩
    · rw [hfind] at h
      obtain rfl := Option.some.inj h
      obtain ⟨hsplit, hnot⟩ := ih hfind
      refine ⟨?_, hnot⟩
      rw [List.take_succ_cons, List.drop_succ_cons, List.cons_append, ← hsplit]

theorem findLast_append {y : α} (xs : List α) {ys : List α} (h : y ∉ ys) :
    findLast y (xs ++ y :: ys) = some xs.length := by
  induction xs with
  | nil =>
    rw [List.nil_append, findLast, findLast_eq_none.mpr h]
    simp
  | cons x xs ih =>
    rw [List.cons_append, findLast, ih]
    rfl

end ListSearch

end RtaTool
