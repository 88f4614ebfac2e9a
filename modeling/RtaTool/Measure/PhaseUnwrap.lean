import RtaTool.Lib.Numerals
import Mathlib.Algebra.Order.Field.Basic
import Mathlib.Data.List.Chain
import Mathlib.Tactic.Linarith
import Mathlib.Tactic.Ring

/-!
# Unwrapping a phase trace

`PhaseUnwrap.cpp`. A running offset of whole turns is added to the bins; it is corrected where the
step from the last trusted bin is longer than half a turn. A bin whose coherence is at or below the
threshold is shown at the offset there is and leaves no mark: the trusted bins come out as if the
others were not there. One correction is enough, because both ends of a step are in `(-pi, pi]`.

## Main definitions

* `UnwrapState.bin`, `unwrapBins` -- one bin, and the loop
* `unwrapCore`, `unwrapPhase`, `unwrapPhaseGated`
* `trustedPart` -- what is left without the gated bins

## Main results

* `trustedPart_unwrapBins` -- the gated bins have no influence on the others
* `unwrapPhaseGated_spec` -- **Headline.** Turns, steps, the first bin and non-interference
-/

namespace RtaTool

namespace Measure

variable {K : Type*} [Field K] [LinearOrder K]

/-! ### `PhaseUnwrap.cpp` -/

/-- `UnwrapOptions`. -/
structure UnwrapOptions (K : Type*) [Zero K] where
  minimumCoherence : K := 0

/-- The locals of the loop. `anchor` is there once `anchorSet` is. -/
structure UnwrapState (K : Type*) where
  anchor : Option K
  offset : K

/-- The offset after the step to a trusted bin. -/
def UnwrapState.corrected (pi : K) (s : UnwrapState K) (wrapped : K) : K :=
  match s.anchor with
  | none => s.offset
  | some anchor =>
    let delta := wrapped - anchor
    if pi < delta then s.offset - 2 * pi
    else if delta < -pi then s.offset + 2 * pi
    else s.offset

/-- The state after one bin. -/
def UnwrapState.bin (pi : K) (s : UnwrapState K) (wrapped : K) (gated : Bool) : UnwrapState K :=
  if gated then s else { anchor := some wrapped, offset := s.corrected pi wrapped }

/-- The loop, over bins and whether they are gated. -/
def unwrapBins (pi : K) (s : UnwrapState K) : List (K × Bool) → List K
  | [] => []
  | (wrapped, gated) :: bins =>
    let next := s.bin pi wrapped gated
    (wrapped + next.offset) :: unwrapBins pi next bins

/-- Which bins are gated. -/
def gatedBins (coherence : Option (List K)) (options : UnwrapOptions K) (n : ℕ) : List Bool :=
  match coherence with
  | none => List.replicate n false
  | some coherence => coherence.map fun c =>
      decide (0 < options.minimumCoherence) && decide (c ≤ options.minimumCoherence)

/-- `unwrapCore(wrapped, coherence, out, options)`, where `out` has room for `outSize`. -/
def unwrapCore (pi : K) (wrapped : List K) (coherence : Option (List K)) (outSize : ℕ)
    (options : UnwrapOptions K) : Except String (List K) :=
  if outSize ≠ wrapped.length then
    .error "unwrapPhase: out must be the same length as wrapped"
  else if coherence.any fun c => c.length ≠ wrapped.length then
    .error "unwrapPhase: coherence must be the same length as wrapped"
  else
    .ok (unwrapBins pi { anchor := none, offset := 0 }
      (wrapped.zip (gatedBins coherence options wrapped.length)))

/-- `unwrapPhase(wrapped, out, options)`. -/
def unwrapPhase (pi : K) (wrapped : List K) (outSize : ℕ) (options : UnwrapOptions K) :
    Except String (List K) :=
  unwrapCore pi wrapped none outSize options

/-- `unwrapPhase(wrapped, coherence, out, options)`. -/
def unwrapPhaseGated (pi : K) (wrapped coherence : List K) (outSize : ℕ)
    (options : UnwrapOptions K) : Except String (List K) :=
  unwrapCore pi wrapped (some coherence) outSize options

/-! ### The trusted bins -/

/-- What is left of values without those of the gated bins. -/
def trustedPart {α : Type*} (gated : List Bool) (values : List α) : List α :=
  ((values.zip gated).filter fun bin => !bin.2).map Prod.fst

theorem trustedPart_cons {α : Type*} (gate : Bool) (gated : List Bool) (v : α) (values : List α) :
    trustedPart (gate :: gated) (v :: values) =
      if gate then trustedPart gated values else v :: trustedPart gated values := by
  cases gate <;> rfl

/-- The gated bins have no influence on the others. -/
theorem trustedPart_unwrapBins (pi : K) (s : UnwrapState K) {wrapped : List K} {gated : List Bool}
    (hlength : gated.length = wrapped.length) :
    trustedPart gated (unwrapBins pi s (wrapped.zip gated)) =
      unwrapBins pi s ((trustedPart gated wrapped).zip
        (List.replicate (trustedPart gated wrapped).length false)) := by
  induction wrapped generalizing gated s with
  | nil =>
    obtain rfl := List.length_eq_zero_iff.mp hlength
    rfl
  | cons w wrapped ih =>
    obtain ⟨gate, gated, rfl⟩ := List.exists_cons_of_length_eq_add_one hlength
    have hrest : gated.length = wrapped.length := Nat.succ_inj.mp hlength
    rw [List.zip_cons_cons, unwrapBins, trustedPart_cons, trustedPart_cons]
    cases gate with
    | true => exact ih s hrest
    | false =>
      simp only [Bool.false_eq_true, if_false]
      rw [ih (s.bin pi w false) hrest, List.length_cons, List.replicate_succ, List.zip_cons_cons,
        unwrapBins]

/-! ### Whole turns -/

/-- The phase is whole turns from the one that was given. -/
def WholeTurns (pi wrapped out : K) : Prop := ∃ n : ℤ, out = wrapped + n * (2 * pi)

theorem corrected_turns {pi : K} {s : UnwrapState K} (h : ∃ n : ℤ, s.offset = n * (2 * pi))
    (wrapped : K) : ∃ n : ℤ, s.corrected pi wrapped = n * (2 * pi) := by
  obtain ⟨n, hn⟩ := h
  rw [UnwrapState.corrected.eq_def]
  cases s.anchor with
  | none => exact ⟨n, hn⟩
  | some anchor =>
    dsimp only
    split_ifs
    · refine ⟨n - 1, ?_⟩
      rw [hn]
      push_cast
      ring
    · refine ⟨n + 1, ?_⟩
      rw [hn]
      push_cast
      ring
    · exact ⟨n, hn⟩

theorem unwrapBins_turns {pi : K} {s : UnwrapState K} (h : ∃ n : ℤ, s.offset = n * (2 * pi))
    (bins : List (K × Bool)) :
    List.Forall₂ (WholeTurns pi) (bins.map Prod.fst) (unwrapBins pi s bins) := by
  induction bins generalizing s with
  | nil => exact .nil
  | cons bin bins ih =>
    have hnext : ∃ n : ℤ, (s.bin pi bin.1 bin.2).offset = n * (2 * pi) := by
      rw [UnwrapState.bin]
      split_ifs
      · exact h
      · exact corrected_turns h bin.1
    rw [List.map_cons, unwrapBins]
    refine .cons ?_ (ih hnext)
    obtain ⟨n, hn⟩ := hnext
    exact ⟨n, by rw [hn]⟩

/-! ### Steps -/

/-- The values of a wrapped phase. -/
def IsWrapped (pi wrapped : K) : Prop := -pi < wrapped ∧ wrapped ≤ pi

variable [IsStrictOrderedRing K]

theorem abs_corrected_step {pi : K} {anchor wrapped : K} (offset : K)
    (hanchor : IsWrapped pi anchor) (hwrapped : IsWrapped pi wrapped) :
    |wrapped + UnwrapState.corrected pi ⟨some anchor, offset⟩ wrapped - (anchor + offset)| ≤
      pi := by
  obtain ⟨halow, hahigh⟩ := hanchor
  obtain ⟨hlow, hhigh⟩ := hwrapped
  rw [UnwrapState.corrected, abs_le]
  dsimp only
  split_ifs with hup hdown
  · constructor <;> linarith
  · constructor <;> linarith
  · constructor <;> linarith

/-- Trusted bins one after another are at most half a turn apart. -/
theorem isChain_unwrapBins {pi : K} {anchor offset : K} (hanchor : IsWrapped pi anchor)
    {wrapped : List K} (hwrapped : ∀ w ∈ wrapped, IsWrapped pi w) :
    List.IsChain (fun a b => |b - a| ≤ pi) ((anchor + offset) ::
      unwrapBins pi ⟨some anchor, offset⟩ (wrapped.zip (List.replicate wrapped.length false))) := by
  induction wrapped generalizing anchor offset with
  | nil => exact List.isChain_singleton _
  | cons w wrapped ih =>
    obtain ⟨hw, hrest⟩ := List.forall_mem_cons.mp hwrapped
    rw [List.length_cons, List.replicate_succ, List.zip_cons_cons, unwrapBins]
    exact List.isChain_cons_cons.mpr ⟨abs_corrected_step offset hanchor hw, ih hw hrest⟩

/-- The first bin is at its raw value, and no step is longer than half a turn. -/
theorem unwrapBins_trusted {pi : K} {wrapped : List K} (hwrapped : ∀ w ∈ wrapped, IsWrapped pi w) :
    let out := unwrapBins pi { anchor := none, offset := 0 }
      (wrapped.zip (List.replicate wrapped.length false))
    out.head? = wrapped.head? ∧ List.IsChain (fun a b => |b - a| ≤ pi) out := by
  cases wrapped with
  | nil => exact ⟨rfl, List.isChain_nil⟩
  | cons w wrapped =>
    obtain ⟨hw, hrest⟩ := List.forall_mem_cons.mp hwrapped
    rw [List.length_cons, List.replicate_succ, List.zip_cons_cons, unwrapBins]
    exact ⟨congrArg some (add_zero w), isChain_unwrapBins hw hrest⟩

/-! ### The gated overload -/

omit [IsStrictOrderedRing K] in
/-- It is refused for the lengths and for nothing else. -/
theorem unwrapPhaseGated_eq_ok {pi : K} {wrapped coherence : List K} {outSize : ℕ}
    {options : UnwrapOptions K} {out : List K} :
    unwrapPhaseGated pi wrapped coherence outSize options = .ok out ↔
      outSize = wrapped.length ∧ coherence.length = wrapped.length ∧
        unwrapBins pi { anchor := none, offset := 0 }
          (wrapped.zip (gatedBins (some coherence) options wrapped.length)) = out := by
  rw [unwrapPhaseGated, unwrapCore]
  by_cases hout : outSize = wrapped.length
  · by_cases hcoherence : coherence.length = wrapped.length
    · simp [hout, hcoherence]
    · simp [hout, hcoherence]
  · simp [hout]

/-- **Headline.** Phases in `(-pi, pi]`, and any coherence and threshold. An accepted call leaves
every bin whole turns from its input; the trusted bins, one after another however many gated ones
lie between, at most half a turn apart, the first at its raw value; and the trusted ones as the
ungated overload leaves them where they are all there is. -/
theorem unwrapPhaseGated_spec (pi : K) (wrapped coherence : List K) (options : UnwrapOptions K)
    (hwrapped : ∀ w ∈ wrapped, IsWrapped pi w) :
    (∀ outSize, (∃ out, unwrapPhaseGated pi wrapped coherence outSize options = .ok out) ↔
      outSize = wrapped.length ∧ coherence.length = wrapped.length) ∧
    ∀ outSize out, unwrapPhaseGated pi wrapped coherence outSize options = .ok out →
      let trusted := trustedPart (α := K) (gatedBins (some coherence) options wrapped.length)
      List.Forall₂ (WholeTurns pi) wrapped out ∧
        (trusted out).head? = (trusted wrapped).head? ∧
        List.IsChain (fun a b => |b - a| ≤ pi) (trusted out) ∧
        unwrapPhase pi (trusted wrapped) (trusted wrapped).length options = .ok (trusted out) := by
  constructor
  · intro outSize
    simp only [unwrapPhaseGated_eq_ok, exists_and_left, exists_eq', and_true]
  · intro outSize out hout trusted
    obtain ⟨-, hlength, rfl⟩ := unwrapPhaseGated_eq_ok.mp hout
    have hgated : (gatedBins (some coherence) options wrapped.length).length = wrapped.length :=
      (List.length_map ..).trans hlength
    have hpart := trustedPart_unwrapBins pi { anchor := none, offset := 0 } hgated
    have hsub : ∀ w ∈ trusted wrapped, IsWrapped pi w := by
      intro w hw
      obtain ⟨bin, hbin, rfl⟩ := List.mem_map.mp hw
      exact hwrapped _ (List.of_mem_zip (List.mem_filter.mp hbin).1).1
    have hturns := @unwrapBins_turns K _ _ pi { anchor := none, offset := 0 } ⟨0, by simp⟩
      (wrapped.zip (gatedBins (some coherence) options wrapped.length))
    rw [List.map_fst_zip hgated.ge] at hturns
    obtain ⟨hhead, hchain⟩ := unwrapBins_trusted hsub
    refine ⟨hturns, ?_, ?_, ?_⟩
    · exact (congrArg List.head? hpart).trans hhead
    · change List.IsChain _ (trustedPart _ _)
      rw [hpart]
      exact hchain
    · change unwrapCore pi (trusted wrapped) none (trusted wrapped).length options = _
      rw [unwrapCore, if_neg (not_not.mpr rfl), if_neg (by simp)]
      exact congrArg Except.ok hpart.symm

/-- A gated bin between two that are a wrap apart. -/
theorem unwrapPhaseGated_spec_wrap :
    unwrapPhaseGated (22 / 7 : ℚ) [3, 1, -3] [1, 1 / 4, 1] 3 ⟨1 / 2⟩ = .ok [3, 1, 23 / 7] ∧
      unwrapPhase (22 / 7 : ℚ) [3, -3] 2 ⟨1 / 2⟩ = .ok [3, 23 / 7] := by
  have hgated : gatedBins (K := ℚ) (some [1, 1 / 4, 1]) ⟨1 / 2⟩ 3 = [false, true, false] := by
    simp only [gatedBins, List.map_cons, List.map_nil]
    norm_num
  have hrun : unwrapPhaseGated (22 / 7 : ℚ) [3, 1, -3] [1, 1 / 4, 1] 3 ⟨1 / 2⟩ =
      .ok [3, 1, 23 / 7] := by
    refine unwrapPhaseGated_eq_ok.mpr ⟨rfl, rfl, ?_⟩
    change unwrapBins _ _ (List.zip _ (gatedBins _ _ 3)) = _
    rw [hgated]
    simp only [List.zip_cons_cons, List.zip_nil_right, unwrapBins, UnwrapState.bin,
      UnwrapState.corrected]
    norm_num
  have hspec := (unwrapPhaseGated_spec (22 / 7 : ℚ) [3, 1, -3] [1, 1 / 4, 1] ⟨1 / 2⟩
    (by simp only [List.forall_mem_cons, IsWrapped]; norm_num)).2 3 _ hrun
  obtain ⟨-, -, -, hsame⟩ := hspec
  change unwrapPhase _ (trustedPart (gatedBins _ _ 3) _)
    (trustedPart (gatedBins _ _ 3) _).length _ = .ok (trustedPart (gatedBins _ _ 3) _) at hsame
  rw [hgated] at hsame
  exact ⟨hrun, hsame⟩

end Measure

end RtaTool
