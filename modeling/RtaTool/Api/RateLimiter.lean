import RtaTool.Lib.SlidingWindow
import Mathlib.Algebra.Order.Group.Int

/-!
# The rate limit of the remote interface

`RateLimiter`: a queue of the instants of admission that are less than a second old. Instants are
ticks of the steady clock, in nanoseconds.

## Main definitions

* `RateLimiter`, `RateLimiter.admitCall`
* `RateLimiter.calls`, `RateLimiter.after` -- a sequence of calls, with their answers

## Main results

* `RateLimiter.calls_eq`, `RateLimiter.after_eq` -- the limiter is an admission over a sliding window
* `rateLimiter_sliding` -- **Headline.** The bound, in every second; when a call is refused
-/

namespace RtaTool

namespace Api

/-- `RateLimiter`. -/
structure RateLimiter where
  admissions : List ℤ
  maxPerSecond : ℤ
  deriving DecidableEq

/-- `kWindow`, one second. -/
def kWindow : ℤ := 1000000000

namespace RateLimiter

/-- `RateLimiter::RateLimiter`. -/
def make (maxPerSecond : ℤ) : RateLimiter := { admissions := [], maxPerSecond }

/-- `RateLimiter::admit`. -/
def admitCall (limiter : RateLimiter) (now : ℤ) : Bool × RateLimiter :=
  if limiter.maxPerSecond ≤ 0 then (false, limiter)
  else
    -- the loop pops the front as long as it is a second old or older
    let admissions := limiter.admissions.dropWhile fun front => now - front ≥ kWindow
    if (admissions.length : ℤ) ≥ limiter.maxPerSecond then (false, { limiter with admissions })
    else (true, { limiter with admissions := admissions ++ [now] })

/-- The limiter after calls at the instants `nows`. -/
def after (maxPerSecond : ℤ) (nows : List ℤ) : RateLimiter :=
  nows.foldl (fun limiter now => (limiter.admitCall now).2) (make maxPerSecond)

/-- The answers to calls, from a limiter on. -/
def answers (limiter : RateLimiter) : List ℤ → List (ℤ × Bool)
  | [] => []
  | now :: nows => (now, (limiter.admitCall now).1) :: answers (limiter.admitCall now).2 nows

/-- The calls at the instants `nows`, with their answers. -/
def calls (maxPerSecond : ℤ) (nows : List ℤ) : List (ℤ × Bool) := (make maxPerSecond).answers nows

/-! ### The limiter as an admission -/

open SlidingWindow

variable {maxPerSecond : ℤ}

theorem admitCall_eq (hmax : 0 < maxPerSecond) (queue : List ℤ) (now : ℤ) :
    admitCall ⟨queue, maxPerSecond⟩ now =
      ((SlidingWindow.admitCall kWindow maxPerSecond.toNat queue now).1,
        ⟨(SlidingWindow.admitCall kWindow maxPerSecond.toNat queue now).2, maxPerSecond⟩) := by
  have hfull : (expire kWindow queue now).length ≥ maxPerSecond ↔
      maxPerSecond.toNat ≤ (expire kWindow queue now).length := by omega
  have hloop : (queue.dropWhile fun front => now - front ≥ kWindow) = expire kWindow queue now :=
    rfl
  rw [admitCall, if_neg (not_le.mpr hmax), SlidingWindow.admitCall]
  dsimp only
  rw [hloop]
  by_cases hle : maxPerSecond.toNat ≤ (expire kWindow queue now).length
  · simp only [if_pos hle, if_pos (hfull.mpr hle)]
  · simp only [if_neg hle, if_neg (mt hfull.mp hle)]

theorem admitCall_of_nonpos {limiter : RateLimiter} (hmax : limiter.maxPerSecond ≤ 0) (now : ℤ) :
    limiter.admitCall now = (false, limiter) := by
  rw [admitCall, if_pos hmax]

theorem answers_append (limiter : RateLimiter) (nows later : List ℤ) :
    limiter.answers (nows ++ later) = limiter.answers nows ++
      (nows.foldl (fun limiter now => (limiter.admitCall now).2) limiter).answers later := by
  induction nows generalizing limiter with
  | nil => rfl
  | cons now nows ih =>
    rw [List.cons_append, answers, answers, ih, List.foldl_cons, List.cons_append]

theorem calls_concat (maxPerSecond : ℤ) (nows : List ℤ) (now : ℤ) :
    calls maxPerSecond (nows ++ [now]) =
      calls maxPerSecond nows ++ [(now, ((after maxPerSecond nows).admitCall now).1)] := by
  rw [calls, answers_append]
  rfl

theorem after_concat (maxPerSecond : ℤ) (nows : List ℤ) (now : ℤ) :
    after maxPerSecond (nows ++ [now]) = ((after maxPerSecond nows).admitCall now).2 := by
  rw [after, List.foldl_append]
  rfl

theorem after_eq (hmax : 0 < maxPerSecond) (nows : List ℤ) :
    after maxPerSecond nows = ⟨(run kWindow maxPerSecond.toNat nows).queue, maxPerSecond⟩ := by
  induction nows using List.reverseRecOn with
  | nil => rfl
  | append_singleton nows now ih => rw [after_concat, ih, admitCall_eq hmax, run_concat, Run.call]

theorem calls_eq (hmax : 0 < maxPerSecond) (nows : List ℤ) :
    calls maxPerSecond nows = (run kWindow maxPerSecond.toNat nows).calls := by
  induction nows using List.reverseRecOn with
  | nil => rfl
  | append_singleton nows now ih =>
    rw [calls_concat, ih, after_eq hmax, admitCall_eq hmax, run_concat, Run.call]

/-- A limiter of no calls keeps nothing and admits nothing. -/
theorem after_of_nonpos (hmax : maxPerSecond ≤ 0) (nows : List ℤ) :
    after maxPerSecond nows = make maxPerSecond ∧
      ∀ c ∈ calls maxPerSecond nows, c.2 = false := by
  induction nows using List.reverseRecOn with
  | nil => exact ⟨rfl, fun c hc => absurd hc (List.not_mem_nil)⟩
  | append_singleton nows now ih =>
    have hadmit : (make maxPerSecond).admitCall now = (false, make maxPerSecond) :=
      admitCall_of_nonpos hmax now
    rw [after_concat, calls_concat, ih.1, hadmit]
    refine ⟨rfl, fun c hc => ?_⟩
    obtain hmem | rfl := (List.mem_append.mp hc).imp_right List.mem_singleton.mp
    · exact ih.2 c hmem
    · rfl

theorem length_filter_admitted (calls : List (ℤ × Bool)) (p : ℤ → Bool) :
    (calls.filter fun c => c.2 && p c.1).length = ((admitted calls).filter p).length := by
  rw [admitted, List.filter_map, List.length_map, List.filter_filter]
  congr 1
  refine List.filter_congr fun c _ => ?_
  exact Bool.and_comm _ _

end RateLimiter

/-! ### The bound -/

open RateLimiter SlidingWindow

/-- **Headline.** In every second at most `maxPerSecond` calls are admitted, a call is refused only
when exactly as many were in the second before it, and the queue is never longer. -/
theorem rateLimiter_sliding (maxPerSecond : ℤ) (nows : List ℤ) (hnows : nows.Pairwise (· ≤ ·)) :
    (∀ start, ((calls maxPerSecond nows).filter
      fun c => c.2 && decide (start ≤ c.1 ∧ c.1 < start + kWindow)).length ≤ maxPerSecond.toNat) ∧
    (∀ before now later, nows = before ++ now :: later →
      ((after maxPerSecond before).admitCall now).1 = false →
      maxPerSecond ≤ 0 ∨ ((calls maxPerSecond before).filter
        fun c => c.2 && decide (now - c.1 < kWindow)).length = maxPerSecond.toNat) ∧
    (after maxPerSecond nows).admissions.length ≤ maxPerSecond.toNat := by
  have hwindow : 0 < kWindow := by decide
  obtain hmax | hmax := le_or_gt maxPerSecond 0
  · obtain ⟨hafter, hcalls⟩ := after_of_nonpos hmax nows
    refine ⟨fun start => ?_, fun _ _ _ _ _ => .inl hmax, ?_⟩
    · have hnone : ((calls maxPerSecond nows).filter
          fun c => c.2 && decide (start ≤ c.1 ∧ c.1 < start + kWindow)) = [] := by
        refine List.filter_eq_nil_iff.mpr fun c hc => ?_
        rw [hcalls c hc, Bool.false_and]
        exact Bool.false_ne_true
      rw [hnone]
      exact Nat.zero_le _
    · rw [hafter]
      exact Nat.zero_le _
  · refine ⟨fun start => ?_, fun before now later hsplit hrefused => ?_, ?_⟩
    · rw [calls_eq hmax, length_filter_admitted _ fun a => start ≤ a ∧ a < start + kWindow]
      exact length_window_le hwindow hnows start
    · have hbefore : (before ++ [now]).Pairwise (· ≤ ·) := by
        rw [hsplit, ← List.singleton_append, ← List.append_assoc] at hnows
        exact (List.pairwise_append.mp hnows).1
      rw [after_eq hmax, admitCall_eq hmax] at hrefused
      rw [calls_eq hmax, length_filter_admitted _ fun a => now - a < kWindow]
      exact .inr ((answer_iff hwindow hbefore).mp hrefused)
    · rw [after_eq hmax]
      exact length_queue_le _ _ nows

/-- Two calls a second: the third in one second is refused, and a second after the first there is
room again. -/
theorem rateLimiter_sliding_two :
    calls 2 [0, 5, 999999999, 1000000000] =
      [(0, true), (5, true), (999999999, false), (1000000000, true)] ∧
    ((calls 2 [0, 5, 999999999, 1000000000]).filter
      fun c => c.2 && decide (5 ≤ c.1 ∧ c.1 < 5 + kWindow)).length ≤ 2 :=
  ⟨by decide, (rateLimiter_sliding 2 [0, 5, 999999999, 1000000000] (by decide)).1 5⟩

end Api

end RtaTool
