import Mathlib.Data.List.DropRight

/-!
# Bounded windows over a growing list

A window of capacity `cap` over a list that grows at its end: a new element is appended while there
is room, and pushes the oldest one out afterwards. It always is the last `cap` elements
(`foldl_pushWindow`).

Several elements often arrive at once, and somebody asks afterwards for the window as it was when
an earlier one of the batch arrived. What can be cut from the window *after* the batch is the
question the second half answers: dropping the `r` newest elements from the last `k` leaves the
last `k - r` of the list without them (`take_rtake_append`), which is shorter than what was there.

## Main definitions

* `pushWindow` -- one element into a bounded window
* `lastOf` -- the last `w` elements, if there are that many

## Main results

* `foldl_pushWindow`, `take_rtake_append`, `lastOf_rtake`, `lastOf_rtake_eq_iff`
-/

namespace RtaTool

variable {α : Type*}

/-- One element into a window of capacity `cap`. -/
def pushWindow (cap : ℕ) (window : List α) (a : α) : List α :=
  if window.length < cap then window ++ [a]
  else if window ≠ [] then window.tail ++ [a]
  else window

@[simp] theorem length_rtake (l : List α) (k : ℕ) : (l.rtake k).length = min k l.length := by
  rw [List.rtake, List.length_drop]
  omega

variable {k : ℕ} {l r : List α}

theorem rtake_of_length_le {l : List α} (h : l.length ≤ k) : l.rtake k = l := by
  rw [List.rtake, Nat.sub_eq_zero_of_le h, List.drop_zero]

theorem rtake_rtake (l : List α) (j k : ℕ) : (l.rtake k).rtake j = l.rtake (min j k) := by
  simp only [List.rtake, List.length_drop, List.drop_drop]
  congr 1
  omega

theorem rtake_append_of_le (h : r.length ≤ k) :
    (l ++ r).rtake k = l.rtake (k - r.length) ++ r := by
  rw [List.rtake, List.rtake, List.length_append, List.drop_append_of_le_length (by omega)]
  congr 2
  omega

/-- A window holds the last elements of what it was fed. -/
theorem pushWindow_rtake {cap : ℕ} (hcap : 0 < cap) (l : List α) (a : α) :
    pushWindow cap (l.rtake cap) a = (l ++ [a]).rtake cap := by
  rw [pushWindow, length_rtake, rtake_append_of_le (Nat.succ_le_iff.mpr hcap)]
  by_cases hlen : l.length < cap
  · rw [if_pos (by omega), rtake_of_length_le hlen.le,
      rtake_of_length_le (by rw [List.length_singleton]; omega)]
  · have hne : l.rtake cap ≠ [] := by
      rw [Ne, ← List.length_eq_zero_iff, length_rtake]
      omega
    rw [if_neg (by omega), if_pos hne, List.rtake, List.rtake, List.tail_drop, List.length_singleton]
    congr 2
    omega

theorem foldl_pushWindow {cap : ℕ} (hcap : 0 < cap) (l as : List α) :
    as.foldl (pushWindow cap) (l.rtake cap) = (l ++ as).rtake cap := by
  induction as generalizing l with
  | nil => rw [List.foldl_nil, List.append_nil]
  | cons a as ih =>
    rw [List.foldl_cons, pushWindow_rtake hcap, ih, List.append_assoc, List.singleton_append]

/-- The window after a batch, less the newest of the batch: the end of what came before them. -/
theorem take_rtake_append (h : r.length ≤ k) :
    ((l ++ r).rtake k).take (((l ++ r).rtake k).length - r.length) = l.rtake (k - r.length) := by
  rw [rtake_append_of_le h]
  refine List.take_left' ?_
  rw [List.length_append]
  omega

/-- The last `w` elements, if there are that many. -/
def lastOf (w : ℕ) (l : List α) : Option (List α) := if w ≤ l.length then some (l.rtake w) else none

/-- What is left of the last `w` elements in a window of the last `k`. -/
theorem lastOf_rtake (w k : ℕ) (l : List α) :
    lastOf w (l.rtake k) = if w ≤ min k l.length then some (l.rtake w) else none := by
  rw [lastOf, length_rtake]
  split
  · rename_i h
    rw [rtake_rtake, Nat.min_eq_left (h.trans (Nat.min_le_left _ _))]
  · rfl

/-- A window is as good as the list exactly when it keeps the elements asked for. -/
theorem lastOf_rtake_eq_iff {w k : ℕ} {l : List α} :
    lastOf w (l.rtake k) = lastOf w l ↔ (w ≤ l.length → w ≤ k) := by
  rw [lastOf_rtake, lastOf]
  by_cases hl : w ≤ l.length
  · by_cases hk : w ≤ k
    · rw [if_pos (le_min hk hl), if_pos hl]
      exact iff_of_true rfl fun _ => hk
    · rw [if_neg (by omega), if_pos hl]
      exact iff_of_false (by simp) fun h => hk (h hl)
  · rw [if_neg (by omega), if_neg hl]
    exact iff_of_true rfl fun h => absurd h hl

end RtaTool
