import Mathlib.Algebra.Order.Group.Defs
import Mathlib.Data.List.Sort
import Mathlib.Data.List.Induction

/-!
# Admission over a sliding window

A call is admitted if fewer than `limit` of the calls admitted before it are less than `width` old.
The instants of those calls are kept in a queue, and the old ones leave it from the front, when the
next call comes. Instants are those of any ordered group.

## Main definitions

* `SlidingWindow.live` -- the instants that are less than `width` old
* `SlidingWindow.admitCall`, `SlidingWindow.run` -- one call, and a sequence of them

## Main results

* `SlidingWindow.expire_run` -- the queue holds the live instants among those admitted
* `SlidingWindow.length_window_le` -- **Headline.** No window of that width has too many of them
* `SlidingWindow.answer_iff` -- when a call is refused
-/

namespace RtaTool

namespace SlidingWindow

variable {T : Type*} [AddCommGroup T] [LinearOrder T] [IsOrderedAddMonoid T]

/-! ### The queue -/

/-- The instants that are less than `width` old. -/
def live (width : T) (l : List T) (now : T) : List T := l.filter fun a => now - a < width

/-- The old instants leave from the front. -/
def expire (width : T) (queue : List T) (now : T) : List T :=
  queue.dropWhile fun front => width ≤ now - front

/-- One call: the answer, and the queue it leaves. -/
def admitCall (width : T) (limit : ℕ) (queue : List T) (now : T) : Bool × List T :=
  if limit ≤ (expire width queue now).length then (false, expire width queue now)
  else (true, expire width queue now ++ [now])

/-- Calls with their answers, and the queue. -/
structure Run (T : Type*) where
  calls : List (T × Bool)
  queue : List T

/-- One call more. -/
def Run.call (width : T) (limit : ℕ) (r : Run T) (now : T) : Run T :=
  let answer := admitCall width limit r.queue now
  { calls := r.calls ++ [(now, answer.1)], queue := answer.2 }

/-- Calls from an empty queue on. -/
def run (width : T) (limit : ℕ) (nows : List T) : Run T :=
  nows.foldl (Run.call width limit) { calls := [], queue := [] }

/-- The instants of the calls that were admitted. -/
def admitted (calls : List (T × Bool)) : List T := (calls.filter fun c => c.2).map fun c => c.1

variable {width : T} {limit : ℕ}

theorem run_concat (width : T) (limit : ℕ) (nows : List T) (now : T) :
    run width limit (nows ++ [now]) = (run width limit nows).call width limit now := by
  rw [run, List.foldl_append]
  rfl

theorem admitted_concat (calls : List (T × Bool)) (now : T) (ok : Bool) :
    admitted (calls ++ [(now, ok)]) = if ok then admitted calls ++ [now] else admitted calls := by
  cases ok <;> simp [admitted]

theorem live_append (width : T) (l r : List T) (now : T) :
    live width (l ++ r) now = live width l now ++ live width r now := List.filter_append ..

/-! ### What the queue holds -/

/-- Of a sorted list only the front is old. -/
theorem expire_eq_live {l : List T} (hl : l.Pairwise (· ≤ ·)) (now : T) :
    expire width l now = live width l now := by
  induction l with
  | nil => rfl
  | cons a l ih =>
    rw [List.pairwise_cons] at hl
    by_cases hold : width ≤ now - a
    · rw [expire, List.dropWhile_cons_of_pos (by simpa using hold), live,
        List.filter_cons_of_neg (by simpa using hold)]
      exact ih hl.2
    · have hrest : live width l now = l := by
        refine List.filter_eq_self.mpr fun b hb => decide_eq_true ?_
        exact (sub_le_sub_left (hl.1 b hb) now).trans_lt (not_le.mp hold)
      rw [expire, List.dropWhile_cons_of_neg (by simpa using hold), live,
        List.filter_cons_of_pos (by simpa using hold)]
      exact congrArg _ hrest.symm

theorem live_live (l : List T) {m now : T} (h : m ≤ now) :
    live width (live width l m) now = live width l now := by
  rw [live, live, List.filter_filter]
  refine List.filter_congr fun a _ => ?_
  rw [Bool.and_eq_left_iff_imp]
  intro hlive
  exact decide_eq_true ((sub_le_sub_right h a).trans_lt (of_decide_eq_true hlive))

variable {nows : List T}

theorem mem_of_mem_admitted {a : T}
    (ha : a ∈ admitted (run width limit nows).calls) : a ∈ nows := by
  induction nows using List.reverseRecOn with
  | nil => simp [run, admitted] at ha
  | append_singleton nows now ih =>
    rw [run_concat, Run.call, admitted_concat] at ha
    split_ifs at ha
    · rw [List.mem_append] at ha
      exact List.mem_append.mpr (ha.imp_left ih)
    · exact List.mem_append_left _ (ih ha)

theorem pairwise_admitted (hnows : nows.Pairwise (· ≤ ·)) :
    (admitted (run width limit nows).calls).Pairwise (· ≤ ·) := by
  induction nows using List.reverseRecOn with
  | nil => exact List.Pairwise.nil
  | append_singleton nows now ih =>
    obtain ⟨hbefore, _, hle⟩ := List.pairwise_append.mp hnows
    rw [run_concat, Run.call, admitted_concat]
    split_ifs
    · refine List.pairwise_append.mpr ⟨ih hbefore, List.pairwise_singleton _ _, fun a ha b hb => ?_⟩
      exact hle a (mem_of_mem_admitted ha) b hb
    · exact ih hbefore

/-- At the next call the queue is cut down to the live instants. -/
theorem expire_run (hwidth : 0 < width) {now : T} (hnows : (nows ++ [now]).Pairwise (· ≤ ·)) :
    expire width (run width limit nows).queue now =
      live width (admitted (run width limit nows).calls) now := by
  induction nows using List.reverseRecOn generalizing now with
  | nil => rfl
  | append_singleton nows m ih =>
    obtain ⟨hbefore, _, hle⟩ := List.pairwise_append.mp hnows
    have hm : m ≤ now := hle m (by simp) now (by simp)
    have hqueue : (run width limit (nows ++ [m])).queue =
        live width (admitted (run width limit (nows ++ [m])).calls) m := by
      rw [run_concat, Run.call, admitted_concat]
      dsimp only
      rw [admitCall, ih hbefore]
      by_cases hfull : limit ≤ (live width (admitted (run width limit nows).calls) m).length
      · simp only [if_pos hfull, Bool.false_eq_true, if_false]
      · simp only [if_neg hfull, if_true]
        rw [live_append]
        simp [live, hwidth]
    rw [hqueue, expire_eq_live, live_live _ hm]
    exact (pairwise_admitted hbefore).filter _

/-! ### What is admitted -/

theorem length_queue_le (width : T) (limit : ℕ) (nows : List T) :
    (run width limit nows).queue.length ≤ limit := by
  induction nows using List.reverseRecOn with
  | nil => exact Nat.zero_le _
  | append_singleton nows now ih =>
    have hexpire : (expire width (run width limit nows).queue now).length ≤ limit :=
      (List.dropWhile_sublist _).length_le.trans ih
    rw [run_concat, Run.call, admitCall]
    dsimp only
    split_ifs with hfull
    · exact hexpire
    · rw [List.length_append, List.length_singleton]
      exact Nat.succ_le_of_lt (not_le.mp hfull)

/-- A call is refused exactly when there are `limit` live ones that were admitted. -/
theorem answer_iff (hwidth : 0 < width) {now : T} (hnows : (nows ++ [now]).Pairwise (· ≤ ·)) :
    (admitCall width limit (run width limit nows).queue now).1 = false ↔
      (live width (admitted (run width limit nows).calls) now).length = limit := by
  have hle : (expire width (run width limit nows).queue now).length ≤ limit :=
    (List.dropWhile_sublist _).length_le.trans (length_queue_le width limit nows)
  rw [← expire_run hwidth hnows, admitCall]
  split_ifs with hfull
  · exact iff_of_true rfl (hle.antisymm hfull)
  · exact iff_of_false (by simp) fun heq => hfull heq.ge

/-- **Headline.** At most `limit` of the calls in any window of that width are admitted. -/
theorem length_window_le (hwidth : 0 < width) (hnows : nows.Pairwise (· ≤ ·)) (start : T) :
    ((admitted (run width limit nows).calls).filter
      fun a => start ≤ a ∧ a < start + width).length ≤ limit := by
  induction nows using List.reverseRecOn with
  | nil => exact Nat.zero_le _
  | append_singleton nows now ih =>
    obtain ⟨hbefore, _, hle⟩ := List.pairwise_append.mp hnows
    rw [run_concat, Run.call, admitted_concat]
    split_ifs with hok
    · by_cases hin : start ≤ now ∧ now < start + width
      · -- the earlier ones in the window are live now, and there is room for one more
        have hsub : ((admitted (run width limit nows).calls).filter
            fun a => start ≤ a ∧ a < start + width).Sublist
              (live width (admitted (run width limit nows).calls) now) := by
          refine List.monotone_filter_right _ fun a ha => ?_
          have hstart := (of_decide_eq_true ha).1
          refine decide_eq_true ?_
          calc now - a ≤ now - start := sub_le_sub_left hstart now
            _ < width := sub_lt_iff_lt_add'.mpr hin.2
        have hroom : (live width (admitted (run width limit nows).calls) now).length < limit := by
          rw [← expire_run hwidth hnows]
          by_contra hfull
          rw [admitCall, if_pos (not_lt.mp hfull)] at hok
          cases hok
        rw [List.filter_append, List.filter_cons_of_pos (by simpa using hin), List.filter_nil,
          List.length_append, List.length_singleton]
        exact Nat.succ_le_of_lt (hsub.length_le.trans_lt hroom)
      · rw [List.filter_append, List.filter_cons_of_neg (by simpa using hin), List.filter_nil,
          List.append_nil]
        exact ih hbefore
    · exact ih hbefore

end SlidingWindow

end RtaTool
