import Mathlib.Data.List.Basic

/-!
# Overlapping frames

A stream is cut into frames of `size` elements, one every `hop`. A frame is complete as soon as the
stream has reached its end, and stays what it is however the stream goes on. Whoever takes the
frames one by one from the front, and stops when what is left is shorter than a frame, has taken
just the complete ones.

## Main definitions

* `frameAt` -- a frame of a stream
* `Complete` -- the first `k` frames are those that `n` elements complete

## Main results

* `frameAt_append` -- a complete frame does not change
* `complete_of_fits` -- the frames taken from the front are the complete ones
-/

namespace RtaTool

variable {α : Type*} {hop size : ℕ}

/-- The `j`-th frame. -/
def frameAt (hop size : ℕ) (xs : List α) (j : ℕ) : List α := (xs.drop (j * hop)).take size

/-- The frames that `n` elements complete are the first `k`. -/
def Complete (hop size n k : ℕ) : Prop := ∀ j, j < k ↔ j * hop + size ≤ n

theorem frameAt_append {xs : List α} {j : ℕ} (h : j * hop + size ≤ xs.length) (ys : List α) :
    frameAt hop size (xs ++ ys) j = frameAt hop size xs j := by
  rw [frameAt, frameAt, List.drop_append_of_le_length (by omega),
    List.take_append_of_le_length (by rw [List.length_drop]; omega)]

/-- Frames that overlap or touch leave no gap behind them. -/
theorem mul_hop_le {n k : ℕ} (hle : hop ≤ size) (hfit : ∀ j < k, j * hop + size ≤ n) :
    k * hop ≤ n := by
  cases k with
  | zero =>
    rw [Nat.zero_mul]
    exact Nat.zero_le n
  | succ k =>
    have hlast := hfit k (Nat.lt_succ_self k)
    rw [Nat.succ_mul]
    omega

theorem complete_of_fits {n k : ℕ} (hfit : ∀ j < k, j * hop + size ≤ n)
    (hrest : n < k * hop + size) : Complete hop size n k := by
  intro j
  refine ⟨hfit j, fun hj => ?_⟩
  by_contra hle
  have hmul : k * hop ≤ j * hop := Nat.mul_le_mul_right hop (Nat.not_lt.mp hle)
  omega

end RtaTool
