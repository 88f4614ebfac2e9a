import Mathlib.Data.List.Basic

/-!
# Storage that goes round

A list of fixed length read as a circle: position `n` is the slot `n % length`. `HoldsFrom` says
what stands from a position on. Writing to a position that is less than a whole turn further on
leaves it alone, which is all that a bounded queue over such storage rests on.

Code that copies a run of elements does it in two parts, up to the end of the storage and then from
its start. `partSlot` is the slot of each element of such a copy, and `partSlot_eq` says that the
two parts are the circle.

## Main definitions

* `HoldsFrom` -- what stands from a position on
* `partSlot` -- the slots of a copy in two parts
* `copyInto` -- element by element from a slot on

## Main results

* `HoldsFrom.set_of_lt`, `HoldsFrom.concat` -- writing behind what is held
* `partSlot_eq`
* `holdsFrom_iff_parts` -- reading in two parts
-/

namespace RtaTool

variable {α : Type*}

/-- From the position `start` on, going round, the storage holds `xs`. -/
def HoldsFrom (storage : List α) (start : ℕ) (xs : List α) : Prop :=
  ∀ i < xs.length, storage[(start + i) % storage.length]? = xs[i]?

namespace HoldsFrom

variable {storage xs ys : List α} {start : ℕ}

theorem nil (storage : List α) (start : ℕ) : HoldsFrom storage start [] :=
  fun _ h => absurd h (Nat.not_lt_zero _)

theorem append_iff :
    HoldsFrom storage start (xs ++ ys) ↔
      HoldsFrom storage start xs ∧ HoldsFrom storage (start + xs.length) ys := by
  constructor
  · intro h
    refine ⟨fun i hi => ?_, fun i hi => ?_⟩
    · rw [h i (by rw [List.length_append]; omega), List.getElem?_append_left hi]
    · rw [Nat.add_assoc, h (xs.length + i) (by rw [List.length_append]; omega),
        List.getElem?_append_right (Nat.le_add_right _ _), Nat.add_sub_cancel_left]
  · rintro ⟨hx, hy⟩ i hi
    rw [List.length_append] at hi
    rcases Nat.lt_or_ge i xs.length with hlt | hge
    · rw [List.getElem?_append_left hlt, hx i hlt]
    · rw [List.getElem?_append_right hge, ← hy (i - xs.length) (by omega), Nat.add_assoc,
        Nat.add_sub_cancel' hge]

section

variable (h : HoldsFrom storage start xs)

include h

theorem drop {n : ℕ} (hn : n ≤ xs.length) :
    HoldsFrom storage (start + n) (xs.drop n) := by
  rw [← List.take_append_drop n xs, append_iff, List.length_take, Nat.min_eq_left hn] at h
  exact h.2

theorem take (n : ℕ) : HoldsFrom storage start (xs.take n) := by
  rw [← List.take_append_drop n xs, append_iff] at h
  exact h.1

/-- Only the place in the circle counts. -/
theorem congr_start {start' : ℕ} (hstart : start' % storage.length = start % storage.length) :
    HoldsFrom storage start' xs := by
  intro i hi
  rw [Nat.add_mod, hstart, ← Nat.add_mod]
  exact h i hi

/-- Writing less than a turn further on changes nothing that is held. -/
theorem set_of_lt {m : ℕ} (hm : xs.length ≤ m) (hlt : m < storage.length) (x : α) :
    HoldsFrom (storage.set ((start + m) % storage.length) x) start xs := by
  intro i hi
  rw [List.length_set, List.getElem?_set_ne ?_]
  · exact h i hi
  · intro heq
    have hdist := Nat.sub_mod_eq_zero_of_mod_eq heq
    rw [Nat.add_sub_add_left, Nat.mod_eq_of_lt (by omega)] at hdist
    omega

/-- Writing behind what is held holds one more. -/
theorem concat (hlt : xs.length < storage.length) (x : α) :
    HoldsFrom (storage.set ((start + xs.length) % storage.length) x) start (xs ++ [x]) := by
  refine append_iff.mpr ⟨h.set_of_lt (Nat.le_refl _) hlt x, fun i hi => ?_⟩
  obtain rfl : i = 0 := by simpa using hi
  rw [Nat.add_zero, List.length_set,
    List.getElem?_set_self (Nat.mod_lt _ (Nat.lt_of_le_of_lt (Nat.zero_le _) hlt))]
  rfl

end

end HoldsFrom

/-! ### Copies in two parts -/

/-- The slot of element `i` of a copy of `n` elements from the slot `start` on: the first part runs
up to the end of the storage, the second from its start. -/
def partSlot (length start n i : ℕ) : ℕ :=
  if i < min n (length - start) then start + i else i - min n (length - start)

theorem partSlot_eq {length start n i : ℕ} (hstart : start < length) (hn : n ≤ length)
    (hi : i < n) : partSlot length start n i = (start + i) % length := by
  rw [partSlot]
  split
  · rw [Nat.mod_eq_of_lt (by omega)]
  · rw [Nat.mod_eq_sub_mod (by omega), Nat.mod_eq_of_lt (by omega)]
    omega

/-- Element by element into the slots from `start` on. -/
def copyInto (storage : List α) (start : ℕ) : List α → List α
  | [] => storage
  | x :: xs => copyInto (storage.set start x) (start + 1) xs

@[simp] theorem length_copyInto (storage : List α) (start : ℕ) (xs : List α) :
    (copyInto storage start xs).length = storage.length := by
  induction xs generalizing storage start with
  | nil => rfl
  | cons x xs ih => rw [copyInto, ih, List.length_set]

variable {storage xs : List α}

/-- A copy that does not reach the end writes behind what is held, if it starts there. -/
theorem HoldsFrom.copyInto {start slot : ℕ} (h : HoldsFrom storage start xs)
    (ys : List α) (hslot : slot % storage.length = (start + xs.length) % storage.length)
    (hend : slot + ys.length ≤ storage.length)
    (hroom : xs.length + ys.length ≤ storage.length) :
    HoldsFrom (copyInto storage slot ys) start (xs ++ ys) := by
  induction ys generalizing storage xs slot with
  | nil => rwa [List.append_nil]
  | cons y ys ih =>
    rw [List.length_cons] at hend hroom
    have hset := h.concat (by omega) y
    rw [← hslot, Nat.mod_eq_of_lt (by omega)] at hset
    have hnext : (slot + 1) % (storage.set slot y).length =
        (start + (xs ++ [y]).length) % (storage.set slot y).length := by
      rw [List.length_set, List.length_append, List.length_singleton, ← Nat.add_assoc, Nat.add_mod,
        hslot, ← Nat.add_mod]
    have hrest := ih hset hnext (by rw [List.length_set]; omega)
      (by rw [List.length_set, List.length_append, List.length_singleton]; omega)
    rw [List.append_assoc] at hrest
    exact hrest

/-- What is held up to the end of the storage is a segment of it. -/
theorem HoldsFrom.take_drop {start : ℕ} (h : HoldsFrom storage start xs)
    (hend : start + xs.length ≤ storage.length) : (storage.drop start).take xs.length = xs := by
  refine List.ext_getElem? fun i => ?_
  rw [List.getElem?_take]
  split
  · rename_i hi
    rw [List.getElem?_drop, ← h i hi, Nat.mod_eq_of_lt (by omega)]
  · rename_i hi
    rw [List.getElem?_eq_none (by omega)]

theorem HoldsFrom.read_parts {start : ℕ} (h : HoldsFrom storage start xs)
    (hstart : start < storage.length) (hlen : xs.length ≤ storage.length) :
    (storage.drop start).take (min xs.length (storage.length - start)) ++
      storage.take (xs.length - min xs.length (storage.length - start)) = xs := by
  obtain ⟨n, hn⟩ : ∃ n, n = min xs.length (storage.length - start) := ⟨_, rfl⟩
  rw [← hn]
  have hfront := (h.take n).take_drop (by rw [List.length_take]; omega)
  have hback : HoldsFrom storage 0 (xs.drop n) := by
    by_cases hall : n = xs.length
    · rw [hall, List.drop_length]
      exact .nil _ _
    · refine (h.drop (by omega)).congr_start ?_
      rw [show start + n = storage.length by omega, Nat.mod_self, Nat.zero_mod]
  have hrest := hback.take_drop (by rw [List.length_drop]; omega)
  rw [List.length_take, Nat.min_eq_left (by omega)] at hfront
  rw [List.drop_zero, List.length_drop] at hrest
  rw [hfront, hrest, List.take_append_drop]

theorem HoldsFrom.write_parts {start slot : ℕ} (h : HoldsFrom storage start xs) (ys : List α)
    (hslot : slot = (start + xs.length) % storage.length) (hpos : 0 < storage.length)
    (hroom : xs.length + ys.length ≤ storage.length) :
    HoldsFrom (RtaTool.copyInto (RtaTool.copyInto storage slot
      (ys.take (min ys.length (storage.length - slot)))) 0
      (ys.drop (min ys.length (storage.length - slot)))) start (xs ++ ys) := by
  obtain ⟨n, hn⟩ : ∃ n, n = min ys.length (storage.length - slot) := ⟨_, rfl⟩
  have hlt : slot < storage.length := hslot ▸ Nat.mod_lt _ hpos
  rw [← hn]
  have hfront : HoldsFrom (RtaTool.copyInto storage slot (ys.take n)) start (xs ++ ys.take n) :=
    h.copyInto (ys.take n) (by rw [hslot, Nat.mod_mod]) (by rw [List.length_take]; omega)
      (by rw [List.length_take]; omega)
  rw [← List.take_append_drop n ys, ← List.append_assoc, List.take_append_drop]
  by_cases hall : n = ys.length
  · rw [hall, List.drop_length, List.append_nil]
    rw [hall] at hfront
    exact hfront
  · have hturn : (start + (xs.length + n)) % storage.length = 0 := by
      rw [← Nat.add_assoc, ← Nat.mod_add_mod, ← hslot, show slot + n = storage.length by omega,
        Nat.mod_self]
    refine hfront.copyInto (ys.drop n) ?_ ?_ ?_
    · rw [length_copyInto, List.length_append, List.length_take, Nat.min_eq_left (by omega), hturn,
        Nat.zero_mod]
    · rw [length_copyInto, List.length_drop]
      omega
    · rw [length_copyInto, List.length_append, List.length_take, List.length_drop]
      omega

end RtaTool
