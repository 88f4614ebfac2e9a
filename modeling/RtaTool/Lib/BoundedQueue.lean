import Mathlib.Data.List.Basic

/-!
# Bounded queues and what has gone through them

A `BoundedQueue` is what a single-producer single-consumer ring looks like from outside: a list no
longer than its capacity. A write is taken whole or refused whole; a discard takes from the front.

A queue forgets what has gone through it. `Holds q written consumed` says it: the queue is what was
written less the first `consumed`. Two queues that are written separately but with the same things,
and from which equally many have been taken, agree as far as both of them reach
(`agreeUpTo_of_holds`), even while one of them is a write ahead.

## Main definitions

* `AgreeUpTo` -- two lists begin alike
* `BoundedQueue`, `write`, `peek`, `discard`
* `Holds` -- what was written, and how much of it is gone

## Main results

* `Holds.write`, `Holds.discard`, `agreeUpTo_of_holds`
-/

namespace RtaTool

variable {α : Type*}

/-! ### Lists with a common front -/

/-- Both lists have `k` elements, and these are the same. -/
def AgreeUpTo (k : ℕ) (xs ys : List α) : Prop :=
  k ≤ xs.length ∧ k ≤ ys.length ∧ xs.take k = ys.take k

namespace AgreeUpTo

variable {k : ℕ} {xs ys : List α}

theorem take_eq (h : AgreeUpTo k xs ys) {j : ℕ} (hj : j ≤ k) : xs.take j = ys.take j := by
  rw [← Nat.min_eq_left hj, ← List.take_take, h.2.2, List.take_take]

theorem extend (h : AgreeUpTo k xs ys) {xs' ys' : List α} (hx : xs <+: xs') (hy : ys <+: ys') :
    AgreeUpTo k xs' ys' := by
  obtain ⟨as, rfl⟩ := hx
  obtain ⟨bs, rfl⟩ := hy
  refine ⟨Nat.le_trans h.1 (by simp), Nat.le_trans h.2.1 (by simp), ?_⟩
  rw [List.take_append_of_le_length h.1, List.take_append_of_le_length h.2.1, h.2.2]

theorem drop {j : ℕ} (h : AgreeUpTo (j + k) xs ys) : AgreeUpTo k (xs.drop j) (ys.drop j) := by
  obtain ⟨hx, hy, heq⟩ := h
  refine ⟨by rw [List.length_drop]; omega, by rw [List.length_drop]; omega, ?_⟩
  have hdropped := congrArg (List.drop j) heq
  rwa [List.drop_take, List.drop_take, Nat.add_sub_cancel_left] at hdropped

end AgreeUpTo

/-! ### Queues -/

theorem drop_min_length (xs : List α) (n : ℕ) : xs.drop (min n xs.length) = xs.drop n := by
  by_cases hle : n ≤ xs.length
  · rw [Nat.min_eq_left hle]
  · rw [Nat.min_eq_right (by omega), List.drop_length, List.drop_eq_nil_of_le (by omega)]

/-- A list that never outgrows its capacity. -/
structure BoundedQueue (α : Type*) where
  capacity : ℕ
  items : List α
  length_le : items.length ≤ capacity

namespace BoundedQueue

/-- An empty queue. -/
def empty (capacity : ℕ) : BoundedQueue α := ⟨capacity, [], Nat.zero_le _⟩

/-- All of `src`, or nothing. -/
def write (q : BoundedQueue α) (src : List α) : Bool × BoundedQueue α :=
  if h : q.items.length + src.length ≤ q.capacity then
    (true, ⟨q.capacity, q.items ++ src, by rwa [List.length_append]⟩)
  else (false, q)

/-- Up to `count` items from the front, which stay. -/
def peek (q : BoundedQueue α) (count : ℕ) : List α := q.items.take count

/-- Takes up to `count` items from the front, and says how many. -/
def discard (q : BoundedQueue α) (count : ℕ) : ℕ × BoundedQueue α :=
  (min count q.items.length,
    ⟨q.capacity, q.items.drop count,
      List.length_drop ▸ Nat.le_trans (Nat.sub_le _ _) q.length_le⟩)

section

variable (q : BoundedQueue α)

@[simp] theorem discard_fst (count : ℕ) :
    (q.discard count).1 = min count q.items.length := rfl

@[simp] theorem items_discard (count : ℕ) :
    (q.discard count).2.items = q.items.drop count := rfl

theorem items_write (src : List α) :
    (q.write src).2.items = if (q.write src).1 then q.items ++ src else q.items := by
  rw [write]
  split <;> rfl

theorem write_fst_eq_false_iff (src : List α) :
    (q.write src).1 = false ↔ q.capacity < q.items.length + src.length := by
  rw [write]
  split
  · exact iff_of_false (by simp) (by omega)
  · exact iff_of_true rfl (by omega)

end

variable {q : BoundedQueue α}

theorem write_of_le {src : List α} (h : q.items.length + src.length ≤ q.capacity) :
    (q.write src).1 = true ∧ (q.write src).2.items = q.items ++ src ∧
      (q.write src).2.capacity = q.capacity := by
  rw [write, dif_pos h]
  exact ⟨rfl, rfl, rfl⟩

/-- The queue is what was written, less the first `consumed`. -/
def Holds (q : BoundedQueue α) (written : List α) (consumed : ℕ) : Prop :=
  q.items = written.drop consumed ∧ consumed ≤ written.length

theorem holds_of_items_nil (h : q.items = []) : q.Holds [] 0 :=
  ⟨h, Nat.le_refl 0⟩

variable {written : List α} {consumed : ℕ}

theorem Holds.write (h : q.Holds written consumed) (src : List α) :
    (q.write src).2.Holds (if (q.write src).1 then written ++ src else written) consumed := by
  rw [Holds, items_write]
  split
  · rw [h.1, List.drop_append_of_le_length h.2, List.length_append]
    exact ⟨rfl, Nat.le_add_right_of_le h.2⟩
  · exact h

theorem Holds.discard (h : q.Holds written consumed) (count : ℕ) :
    (q.discard count).2.Holds written (consumed + (q.discard count).1) := by
  have hlen : q.items.length = written.length - consumed := by rw [h.1, List.length_drop]
  refine ⟨?_, ?_⟩
  · rw [items_discard, discard_fst, ← List.drop_drop, ← h.1, drop_min_length]
  · rw [discard_fst]
    have := h.2
    omega

/-- Two queues that share what was written, up to a write that one of them may be ahead by, and
that have been consumed equally, agree as far as both of them reach. -/
theorem agreeUpTo_of_holds {p q : BoundedQueue α} {written ahead : List α} {consumed k : ℕ}
    {x y : List α} (hx : x = [] ∨ x = ahead) (hy : y = [] ∨ y = ahead)
    (hp : p.Holds (written ++ x) consumed) (hq : q.Holds (written ++ y) consumed)
    (hkp : k ≤ p.items.length) (hkq : k ≤ q.items.length) : AgreeUpTo k p.items q.items := by
  -- both are prefixes of what the longer of the two would hold
  have hprefix : ∀ {r : BoundedQueue α} {z : List α}, (z = [] ∨ z = ahead) →
      r.Holds (written ++ z) consumed → r.items <+: (written ++ ahead).drop consumed := by
    rintro r z (rfl | rfl) hr
    · have hle := hr.2
      rw [List.append_nil] at hle
      rw [hr.1, List.append_nil, List.drop_append_of_le_length hle]
      exact List.prefix_append _ _
    · exact ⟨[], by rw [List.append_nil, hr.1]⟩
  obtain ⟨xs, hxs⟩ := hprefix hx hp
  obtain ⟨ys, hys⟩ := hprefix hy hq
  refine ⟨hkp, hkq, ?_⟩
  rw [← List.take_append_of_le_length hkp, hxs, ← hys, List.take_append_of_le_length hkq]

end BoundedQueue

end RtaTool
