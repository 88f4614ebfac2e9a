import Mathlib.Data.List.Basic

/-!
# Steps with output

A state that takes one input after another and gives some output for each. Many interfaces take
their input in chunks: what a chunk does should be what its elements do one by one, and then how the
input was cut is of no consequence. `emitted_chunks` is that argument. An interface may owe it only
for chunks that fit, so the hypothesis is asked for along the run.

## Main definitions

* `emitted` -- all the output of a run
* `AllFit` -- every input of a run fits the state that takes it

## Main results

* `emitted_append`, `emitted_eq_of_rel`
* `emitted_chunks` -- chunks that do what their elements do, do what the whole input does
-/

namespace RtaTool

namespace Transducer

variable {State Input Out : Type*}

/-- All the output of a run, in order. -/
def emitted (step : State → Input → State) (out : State → Input → List Out) :
    State → List Input → List Out
  | _, [] => []
  | s, x :: xs => out s x ++ emitted step out (step s x) xs

/-- Every input fits the state that takes it. -/
def AllFit (step : State → Input → State) (fits : State → Input → Prop) :
    State → List Input → Prop
  | _, [] => True
  | s, x :: xs => fits s x ∧ AllFit step fits (step s x) xs

variable {step : State → Input → State} {out : State → Input → List Out}

@[simp] theorem emitted_nil (s : State) : emitted step out s [] = [] := rfl

@[simp] theorem emitted_cons (s : State) (x : Input) (xs : List Input) :
    emitted step out s (x :: xs) = out s x ++ emitted step out (step s x) xs := rfl

theorem emitted_append (s : State) (xs ys : List Input) :
    emitted step out s (xs ++ ys) =
      emitted step out s xs ++ emitted step out (xs.foldl step s) ys := by
  induction xs generalizing s with
  | nil => rfl
  | cons x xs ih => rw [List.cons_append, emitted_cons, ih, emitted_cons, List.append_assoc,
      List.foldl_cons]

theorem emitted_concat (s : State) (xs : List Input) (x : Input) :
    emitted step out s (xs ++ [x]) = emitted step out s xs ++ out (xs.foldl step s) x := by
  rw [emitted_append, emitted_cons, emitted_nil, List.append_nil]

instance AllFit.instDecidable {fits : State → Input → Prop} [∀ s x, Decidable (fits s x)] :
    ∀ (s : State) (xs : List Input), Decidable (AllFit step fits s xs)
  | _, [] => isTrue trivial
  | s, x :: xs =>
    have : Decidable (AllFit step fits (step s x) xs) := AllFit.instDecidable (step s x) xs
    inferInstanceAs (Decidable (fits s x ∧ AllFit step fits (step s x) xs))

/-- Two interfaces that answer alike and stay related answer alike throughout. -/
theorem emitted_eq_of_rel {State' : Type*} {step' : State' → Input → State'}
    {out' : State' → Input → List Out} (Rel : State → State' → Prop)
    (hstep : ∀ s s' x, Rel s s' → Rel (step s x) (step' s' x) ∧ out s x = out' s' x)
    {s : State} {s' : State'} (hrel : Rel s s') (xs : List Input) :
    emitted step out s xs = emitted step' out' s' xs := by
  induction xs generalizing s s' with
  | nil => rfl
  | cons x xs ih =>
    obtain ⟨hrel', hout⟩ := hstep s s' x hrel
    rw [emitted_cons, emitted_cons, hout, ih hrel']

/-- **Cutting the input.** `Rel` says that a state of the interface shows a state of the element by
element run. If a chunk that fits takes related states to related states, with the output of its
elements, then chunks that fit do what the whole input does. -/
theorem emitted_chunks {Impl : Type*} {feed : Impl → List Input → Impl}
    {feedOut : Impl → List Input → List Out} {fits : Impl → List Input → Prop}
    (Rel : Impl → State → Prop)
    (hfeed : ∀ c s xs, Rel c s → fits c xs →
      Rel (feed c xs) (xs.foldl step s) ∧ feedOut c xs = emitted step out s xs)
    {c : Impl} {s : State} {chunks : List (List Input)} (hrel : Rel c s)
    (hfit : AllFit feed fits c chunks) :
    Rel (chunks.foldl feed c) (chunks.flatten.foldl step s) ∧
      emitted feed feedOut c chunks = emitted step out s chunks.flatten := by
  induction chunks generalizing c s with
  | nil => exact ⟨hrel, rfl⟩
  | cons chunk chunks ih =>
    obtain ⟨hfits, hrest⟩ := hfit
    obtain ⟨hrel', hout⟩ := hfeed c s chunk hrel hfits
    obtain ⟨hend, hemitted⟩ := ih hrel' hrest
    rw [List.foldl_cons, List.flatten_cons, List.foldl_append, emitted_cons, emitted_append, hout,
      hemitted]
    exact ⟨hend, rfl⟩

end Transducer

end RtaTool
