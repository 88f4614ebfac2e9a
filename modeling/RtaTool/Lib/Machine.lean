import Mathlib.Data.List.Basic

/-!
# Machines, runs, and rules about them

A `Machine` is an initial-state predicate and a partial step function: `step s a` is `none` when
the action `a` is not enabled in `s`. Several threads over one shared state are one machine whose
actions are the threads' atomic steps, so an interleaving is nothing but a list of actions.

Safety statements about code that runs for a long time are statements about *steps*, not only
about states: "whenever this store happens, nobody is using the slot". So the basic predicate is
`AlongSteps P s acts`, which says that every step of the run of `acts` from `s` satisfies the
three-place predicate `P` (state before, action, state after).

## Main definitions

* `Machine` -- initial states and a partial step function
* `exec` -- the state a list of actions leads to, if every one of them is enabled
* `AlongSteps` -- every step of a run satisfies a predicate
* `Reachable` -- the states some run leads to
* `Repeats` -- one action again and again

## Main results

* `AlongSteps.of_invariant` -- the invariant rule: an invariant that survives every *permitted*
  step turns a run of permitted steps into a run of steps with the wanted property
* `AlongSteps.of_preserved` -- the same where every step is permitted
* `alongSteps_iff` -- its two-way form, for a permission that is exact
* `Reachable.invariant` -- the induction over reachable states
-/

namespace RtaTool

/-- Initial states and a partial step function. `step s a = none` says `a` is not enabled. -/
structure Machine (State Act : Type*) where
  init : State → Prop
  step : State → Act → Option State

namespace Machine

variable {State Act : Type*} (M : Machine State Act)

/-- The state the actions lead to from `s`, or `none` if one of them was not enabled. -/
def exec (s : State) : List Act → Option State
  | [] => some s
  | a :: acts => (M.step s a).bind fun t => exec t acts

@[simp] theorem exec_nil (s : State) : M.exec s [] = some s := rfl

@[simp] theorem exec_cons (s : State) (a : Act) (acts : List Act) :
    M.exec s (a :: acts) = (M.step s a).bind fun t => M.exec t acts := rfl

theorem exec_append (s : State) (as bs : List Act) :
    M.exec s (as ++ bs) = (M.exec s as).bind fun t => M.exec t bs := by
  induction as generalizing s with
  | nil => rfl
  | cons a as ih =>
    simp only [List.cons_append, exec_cons]
    cases M.step s a with
    | none => rfl
    | some t => exact ih t

/-- Taking one action again and again leads from `s` to `t`: one thread running by itself. -/
def Repeats (a : Act) (s t : State) : Prop := ∃ n, M.exec s (List.replicate n a) = some t

variable {M} in
theorem Repeats.refl {a : Act} (s : State) : M.Repeats a s s := ⟨0, rfl⟩

variable {M} in
theorem Repeats.head {a : Act} {s t u : State} (h : M.step s a = some t) (hrest : M.Repeats a t u) :
    M.Repeats a s u := by
  obtain ⟨n, hn⟩ := hrest
  exact ⟨n + 1, by rw [List.replicate_succ, exec_cons, h, Option.bind_some, hn]⟩

variable {M} in
theorem Repeats.trans {a : Act} {s t u : State} (hst : M.Repeats a s t) (htu : M.Repeats a t u) :
    M.Repeats a s u := by
  obtain ⟨n, hn⟩ := hst
  obtain ⟨k, hk⟩ := htu
  exact ⟨n + k, by rw [List.replicate_add, exec_append, hn, Option.bind_some, hk]⟩

/-- Every step of the run of `acts` from `s` satisfies `P`. The run ends at the first action that
is not enabled. -/
def AlongSteps (P : State → Act → State → Prop) : State → List Act → Prop
  | _, [] => True
  | s, a :: acts =>
    match M.step s a with
    | none => True
    | some t => P s a t ∧ AlongSteps P t acts

variable {M} {P ok : State → Act → State → Prop}

variable {acts : List Act}

variable {a : Act} {s t : State}

theorem alongSteps_cons {s : State} :
    M.AlongSteps P s (a :: acts) ↔
      ∀ t, M.step s a = some t → P s a t ∧ M.AlongSteps P t acts := by
  simp only [AlongSteps]
  cases M.step s a with
  | none => simp
  | some t => simp

instance AlongSteps.instDecidable [∀ s a t, Decidable (P s a t)] :
    ∀ (s : State) (acts : List Act), Decidable (M.AlongSteps P s acts)
  | _, [] => isTrue trivial
  | s, a :: acts =>
    match h : M.step s a with
    | none => isTrue (by simp [AlongSteps, h])
    | some t =>
      have := AlongSteps.instDecidable t acts
      decidable_of_iff (P s a t ∧ M.AlongSteps P t acts) (by simp [AlongSteps, h])

theorem AlongSteps.head
    (h : M.AlongSteps P s (a :: acts)) (hstep : M.step s a = some t) : P s a t :=
  (alongSteps_cons.mp h t hstep).1

theorem AlongSteps.tail (h : M.AlongSteps P s (a :: acts)) (hstep : M.step s a = some t) :
    M.AlongSteps P t acts :=
  (alongSteps_cons.mp h t hstep).2

theorem AlongSteps.after {s u t : State} {as : List Act}
    (h : M.AlongSteps P s (as ++ [a])) (hexec : M.exec s as = some u)
    (hstep : M.step u a = some t) : P u a t := by
  induction as generalizing s with
  | nil =>
    rw [exec_nil, Option.some.injEq] at hexec
    subst hexec
    exact h.head hstep
  | cons b as ih =>
    obtain ⟨v, hv, hrest⟩ := Option.bind_eq_some_iff.mp hexec
    exact ih (h.tail hv) hrest

section

variable (Inv : State → Prop)

/-- **The invariant rule.** `ok` says which steps are permitted, `Inv` is what permitted steps
preserve, and `P` is what an invariant state and a permitted step give. -/
theorem AlongSteps.of_invariant
    (hstep : ∀ s a t, Inv s → M.step s a = some t → ok s a t → Inv t ∧ P s a t) :
    ∀ {s : State} {acts : List Act}, Inv s → M.AlongSteps ok s acts → M.AlongSteps P s acts := by
  intro s acts
  induction acts generalizing s with
  | nil => intro _ _; trivial
  | cons a acts ih =>
    intro hInv hok
    refine alongSteps_cons.mpr fun t ht => ?_
    obtain ⟨hInv', hP⟩ := hstep s a t hInv ht (hok.head ht)
    exact ⟨hP, ih hInv' (hok.tail ht)⟩

theorem AlongSteps.exec_invariant
    (hstep : ∀ s a t, Inv s → M.step s a = some t → ok s a t → Inv t) {s t : State}
    (hs : Inv s) (hok : M.AlongSteps ok s acts) (hexec : M.exec s acts = some t) :
    Inv t := by
  induction acts generalizing s with
  | nil =>
    rw [exec_nil, Option.some.injEq] at hexec
    exact hexec ▸ hs
  | cons a acts ih =>
    obtain ⟨u, hu, hrest⟩ := Option.bind_eq_some_iff.mp hexec
    exact ih (hstep s a u hs hu (hok.head hu)) (hok.tail hu) hrest

/-- The invariant rule where every step is permitted. -/
theorem AlongSteps.of_preserved
    (hstep : ∀ s a t, Inv s → M.step s a = some t → Inv t ∧ P s a t) {s : State} (hs : Inv s)
    (acts : List Act) : M.AlongSteps P s acts := by
  induction acts generalizing s with
  | nil => trivial
  | cons a acts ih =>
    refine alongSteps_cons.mpr fun t ht => ?_
    obtain ⟨hInv, hP⟩ := hstep s a t hs ht
    exact ⟨hP, ih hInv⟩

/-- The exact form of the invariant rule: when under the invariant a step is permitted if and only
if it has the property, a run is permitted throughout if and only if it has the property
throughout. -/
theorem alongSteps_iff (hpres : ∀ s a t, Inv s → M.step s a = some t → ok s a t → Inv t)
    (hiff : ∀ s a t, Inv s → M.step s a = some t → (P s a t ↔ ok s a t)) :
    ∀ {s : State} {acts : List Act}, Inv s → (M.AlongSteps P s acts ↔ M.AlongSteps ok s acts) := by
  intro s acts hInv
  constructor
  · refine AlongSteps.of_invariant Inv ?_ hInv
    intro s a t hs ht hP
    have hok := (hiff s a t hs ht).mp hP
    exact ⟨hpres s a t hs ht hok, hok⟩
  · refine AlongSteps.of_invariant Inv ?_ hInv
    intro s a t hs ht hok
    exact ⟨hpres s a t hs ht hok, (hiff s a t hs ht).mpr hok⟩

/-- The states some run from an initial state leads to. -/
inductive Reachable (M : Machine State Act) : State → Prop
  | init {s : State} (h : M.init s) : Reachable M s
  | step {s t : State} {a : Act} (hs : Reachable M s) (h : M.step s a = some t) : Reachable M t

theorem Reachable.invariant (hinit : ∀ s, M.init s → Inv s)
    (hstep : ∀ s a t, Inv s → M.step s a = some t → Inv t) {s : State} (hs : M.Reachable s) :
    Inv s := by
  induction hs with
  | init h => exact hinit _ h
  | step _ h ih => exact hstep _ _ _ ih h

end

theorem Reachable.exec {s t : State} (hs : M.Reachable s)
    (h : M.exec s acts = some t) : M.Reachable t := by
  induction acts generalizing s with
  | nil =>
    rw [exec_nil, Option.some.injEq] at h
    exact h ▸ hs
  | cons a acts ih =>
    obtain ⟨u, hu, hrest⟩ := Option.bind_eq_some_iff.mp h
    exact ih (hs.step hu) hrest

end Machine

end RtaTool
