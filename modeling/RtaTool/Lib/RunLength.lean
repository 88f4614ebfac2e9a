import Mathlib.Data.List.DropRight
import Mathlib.Data.List.Infix

/-!
# Runs of consecutive elements

Whether a list has `n` consecutive elements with a property is found in one pass, with a count of
those at the end of what has been seen. The count is all that has to be kept between the pieces of
a list that arrives in pieces.

## Main definitions

* `HasRun` -- some consecutive elements, as many as asked for
* `trailing` -- how many there are at the end

## Main results

* `hasRun_concat`, `trailing_concat` -- one element more
-/

namespace RtaTool

variable {α : Type*} {n : ℕ} {p : α → Bool} {l : List α}

/-- The list has `n` consecutive elements that satisfy `p`. -/
def HasRun (n : ℕ) (p : α → Bool) (l : List α) : Prop :=
  ∃ r, r <:+: l ∧ n ≤ r.length ∧ ∀ a ∈ r, p a = true

/-- How many elements at the end of the list satisfy `p`. -/
def trailing (p : α → Bool) (l : List α) : ℕ := (l.rtakeWhile p).length

theorem hasRun_iff_tails : HasRun n p l ↔ ∃ t ∈ l.tails, n ≤ (t.takeWhile p).length := by
  constructor
  · rintro ⟨r, hr, hn, hall⟩
    obtain ⟨t, ⟨s, rfl⟩, hsuffix⟩ := List.infix_iff_prefix_suffix.mp hr
    refine ⟨r ++ s, (List.mem_tails ..).mpr hsuffix, hn.trans ?_⟩
    rw [List.takeWhile_append_of_pos hall, List.length_append]
    exact Nat.le_add_right _ _
  · rintro ⟨t, ht, hn⟩
    have hsuffix := (List.mem_tails ..).mp ht
    refine ⟨t.takeWhile p, ?_, hn, fun a ha => List.mem_takeWhile_imp ha⟩
    exact List.infix_iff_prefix_suffix.mpr ⟨t, List.takeWhile_prefix p, hsuffix⟩

instance : Decidable (HasRun n p l) := decidable_of_iff _ hasRun_iff_tails.symm

@[simp] theorem trailing_nil : trailing p [] = 0 := rfl

theorem hasRun_nil (hn : 0 < n) : ¬ HasRun n p [] := by
  rintro ⟨r, hr, hlen, _⟩
  rw [List.infix_nil.mp hr] at hlen
  exact absurd hlen (not_le.mpr hn)

theorem trailing_concat (l : List α) (a : α) :
    trailing p (l ++ [a]) = if p a then trailing p l + 1 else 0 := by
  rw [trailing, List.rtakeWhile_concat]
  split_ifs
  · rw [List.length_append, List.length_singleton, trailing]
  · rfl

/-- A run at the end is no longer than the count. -/
theorem le_trailing_iff : n ≤ trailing p l ↔ ∃ r, r <:+ l ∧ n ≤ r.length ∧ ∀ a ∈ r, p a = true := by
  constructor
  · intro h
    exact ⟨l.rtakeWhile p, List.rtakeWhile_suffix p l, h, fun a ha => List.mem_rtakeWhile_imp ha⟩
  · rintro ⟨r, ⟨s, rfl⟩, hn, hall⟩
    refine hn.trans ?_
    rw [trailing, List.rtakeWhile, List.length_reverse, List.reverse_append,
      List.takeWhile_append_of_pos fun a ha => hall a (List.mem_reverse.mp ha), List.length_append,
      List.length_reverse]
    exact Nat.le_add_right _ _

/-- **Headline.** One element more makes a run only at the end. -/
theorem hasRun_concat (l : List α) (a : α) :
    HasRun n p (l ++ [a]) ↔ HasRun n p l ∨ n ≤ trailing p (l ++ [a]) := by
  rw [le_trailing_iff]
  constructor
  · rintro ⟨r, hr, hn, hall⟩
    obtain hsuffix | hinfix := List.infix_concat_iff.mp hr
    · exact .inr ⟨r, hsuffix, hn, hall⟩
    · exact .inl ⟨r, hinfix, hn, hall⟩
  · rintro (⟨r, hr, hn, hall⟩ | ⟨r, hr, hn, hall⟩)
    · exact ⟨r, List.infix_concat_iff.mpr (.inr hr), hn, hall⟩
    · exact ⟨r, List.infix_concat_iff.mpr (.inl hr), hn, hall⟩

end RtaTool
