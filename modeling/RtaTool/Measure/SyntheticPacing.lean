import Mathlib.Data.Rat.Floor
import RtaTool.Lib.Machine
import RtaTool.Lib.Numerals

/-!
# The pace of the synthetic feed

`SyntheticPacing.h`, and the loop of `SyntheticInput::runBody` around it: a block goes out, the
clock is read, and `nextSyntheticPace` says when the next block is due and how long to sleep before
it. A sleep ends late, never early, and the rings can hold a block back for longer; so a lap of the
loop is two moments, when its block went out and what the clock read after that.

A deadline follows from the one before and not from the clock, except after a lag above the bound:
the clock is where it starts again then.

## Main definitions

* `nextSyntheticPace`, `SyntheticPace`
* `feedBlockMs`, `kMaxLagMs` -- what `runBody` paces with
* `FeedLap`, `FeedPoint`, `syntheticFeed` -- the loop

## Main results

* `nextSyntheticPace_due`, `nextSyntheticPace_anchored`, `nextSyntheticPace_wake`
* `released_before` -- the blocks of a run that have gone out by a moment
* `syntheticFeed_paced` -- **Headline.** The blocks of any interval, and no drift
-/

namespace RtaTool

variable {K : Type*} [Field K] [LinearOrder K] [FloorRing K]

/-- `SyntheticPace`. -/
structure SyntheticPace (K : Type*) where
  dueMs : K
  waitMs : ℤ

/-- `nextSyntheticPace(dueMs, nowMs, blockMs, maxLagMs)`. -/
def nextSyntheticPace (dueMs nowMs blockMs maxLagMs : K) : SyntheticPace K :=
  -- re-anchor: do not burst
  let next := if maxLagMs < nowMs - (dueMs + blockMs) then nowMs else dueMs + blockMs
  let ahead := next - nowMs
  { dueMs := next, waitMs := if 1 ≤ ahead then ⌊ahead⌋ else 0 }

/-- `blockMs` of `runBody`. -/
def feedBlockMs (sampleRate : K) (blockSize : ℕ) (waitMs : ℤ) : K :=
  if 0 < sampleRate then 1000 * blockSize / sampleRate else waitMs

/-- `kMaxLagMs`. -/
def kMaxLagMs : K := 500

/-! ### The loop -/

/-- A lap of the loop: when its block went out, and the clock after it. -/
structure FeedLap (K : Type*) where
  releasedMs : K
  nowMs : K

/-- The loop between two laps: the deadline, and the moment before which the sleep does not end. -/
structure FeedPoint (K : Type*) where
  dueMs : K
  wakeMs : K
  deriving DecidableEq

/-- Before the first lap: the deadline is the clock. -/
def FeedPoint.start (startMs : K) : FeedPoint K := ⟨startMs, startMs⟩

/-- The loop of `runBody`. A block goes out when the sleep has ended, or later. -/
def syntheticFeed (blockMs maxLagMs : K) : Machine (FeedPoint K) (FeedLap K) where
  init p := ∃ startMs, p = .start startMs
  step p lap :=
    if p.wakeMs ≤ lap.releasedMs ∧ lap.releasedMs ≤ lap.nowMs then
      let pace := nextSyntheticPace p.dueMs lap.nowMs blockMs maxLagMs
      some ⟨pace.dueMs, lap.nowMs + pace.waitMs⟩
    else none

/-- The blocks that went out from `fromMs` to `untilMs`. -/
def releasedBetween (fromMs untilMs : K) (laps : List (FeedLap K)) : ℕ :=
  laps.countP fun lap => decide (fromMs ≤ lap.releasedMs ∧ lap.releasedMs ≤ untilMs)

/-- Four laps, the second of them late. -/
def lateLaps : List (FeedLap ℚ) := [⟨0, 0⟩, ⟨50, 50⟩, ⟨50, 51⟩, ⟨51, 51⟩]

/-- The lag after a lap is within the bound. -/
def LagWithin (blockMs maxLagMs : K) (p : FeedPoint K) (lap : FeedLap K) (_ : FeedPoint K) : Prop :=
  lap.nowMs - (p.dueMs + blockMs) ≤ maxLagMs

instance (blockMs maxLagMs : K) (p : FeedPoint K) (lap : FeedLap K) (q : FeedPoint K) :
    Decidable (LagWithin blockMs maxLagMs p lap q) :=
  inferInstanceAs (Decidable (_ ≤ _))

/-! ### One lap -/

section Lap

variable {dueMs nowMs blockMs maxLagMs : K}

theorem nextSyntheticPace_of_le (h : nowMs - (dueMs + blockMs) ≤ maxLagMs) :
    (nextSyntheticPace dueMs nowMs blockMs maxLagMs).dueMs = dueMs + blockMs := by
  rw [nextSyntheticPace, if_neg h.not_gt]

theorem nextSyntheticPace_of_lt (h : maxLagMs < nowMs - (dueMs + blockMs)) :
    (nextSyntheticPace dueMs nowMs blockMs maxLagMs).dueMs = nowMs := by
  rw [nextSyntheticPace, if_pos h]

variable [IsStrictOrderedRing K]

/-- A deadline is a block after the one before, or more. -/
theorem nextSyntheticPace_due (hlag : 0 ≤ maxLagMs) :
    dueMs + blockMs ≤ (nextSyntheticPace dueMs nowMs blockMs maxLagMs).dueMs := by
  rcases le_or_gt (nowMs - (dueMs + blockMs)) maxLagMs with hle | hlt
  · rw [nextSyntheticPace_of_le hle]
  · rw [nextSyntheticPace_of_lt hlt]
    linarith

/-- A deadline is never further behind the clock than the bound. -/
theorem nextSyntheticPace_anchored (hlag : 0 ≤ maxLagMs) :
    nowMs - maxLagMs ≤ (nextSyntheticPace dueMs nowMs blockMs maxLagMs).dueMs := by
  rcases le_or_gt (nowMs - (dueMs + blockMs)) maxLagMs with hle | hlt
  · rw [nextSyntheticPace_of_le hle]
    linarith
  · rw [nextSyntheticPace_of_lt hlt]
    linarith

/-- The sleep is whole milliseconds, and ends less than one of them before the deadline. -/
theorem nextSyntheticPace_wake :
    (nextSyntheticPace dueMs nowMs blockMs maxLagMs).dueMs - 1 <
      nowMs + (nextSyntheticPace dueMs nowMs blockMs maxLagMs).waitMs := by
  simp only [nextSyntheticPace]
  generalize (if maxLagMs < nowMs - (dueMs + blockMs) then nowMs else dueMs + blockMs) = next
  split_ifs with hahead
  · have hfloor := Int.lt_floor_add_one (next - nowMs)
    linarith
  · rw [Int.cast_zero]
    linarith

theorem syntheticFeed_step {p q : FeedPoint K} {lap : FeedLap K}
    (h : (syntheticFeed blockMs maxLagMs).step p lap = some q) :
    (p.wakeMs ≤ lap.releasedMs ∧ lap.releasedMs ≤ lap.nowMs) ∧
      q.dueMs = (nextSyntheticPace p.dueMs lap.nowMs blockMs maxLagMs).dueMs ∧
      q.dueMs - 1 < q.wakeMs := by
  obtain ⟨hmoments, hq⟩ := Option.ite_none_right_eq_some.mp h
  obtain rfl := Option.some.inj hq
  exact ⟨hmoments, rfl, nextSyntheticPace_wake⟩

end Lap

/-! ### Runs -/

section Runs

variable [IsStrictOrderedRing K] {blockMs maxLagMs : K} {p q : FeedPoint K}
  {laps : List (FeedLap K)}

theorem releasedBetween_cons (fromMs untilMs : K) (lap : FeedLap K) (laps : List (FeedLap K)) :
    releasedBetween fromMs untilMs (lap :: laps) = releasedBetween fromMs untilMs laps +
      if fromMs ≤ lap.releasedMs ∧ lap.releasedMs ≤ untilMs then 1 else 0 := by
  simp only [releasedBetween, List.countP_cons, decide_eq_true_eq]

/-- The blocks that have gone out by a moment: a deadline for each of them lies before it. -/
theorem released_before (hblock : 0 < blockMs) (hlag : 0 ≤ maxLagMs) (fromMs untilMs : K)
    (hwake : p.dueMs - 1 < p.wakeMs) (hexec : (syntheticFeed blockMs maxLagMs).exec p laps = some q)
    (hsome : 0 < releasedBetween fromMs untilMs laps) :
    (releasedBetween fromMs untilMs laps : K) < (untilMs - p.dueMs + 1) / blockMs + 1 := by
  induction laps generalizing p with
  | nil => exact absurd hsome (Nat.lt_irrefl 0)
  | cons lap laps ih =>
    obtain ⟨next, hstep, hrest⟩ := Option.bind_eq_some_iff.mp hexec
    obtain ⟨⟨hslept, -⟩, hdue, hnext⟩ := syntheticFeed_step hstep
    have hblocks : p.dueMs + blockMs ≤ next.dueMs := hdue ▸ nextSyntheticPace_due hlag
    -- a deadline later is a block less
    have hshift : (untilMs - next.dueMs + 1) / blockMs + 1 ≤ (untilMs - p.dueMs + 1) / blockMs := by
      rw [← div_self hblock.ne', ← add_div]
      exact div_le_div_of_nonneg_right (by linarith) hblock.le
    rw [releasedBetween_cons] at hsome ⊢
    rcases Nat.eq_zero_or_pos (releasedBetween fromMs untilMs laps) with hnone | hlater
    · rw [hnone, Nat.zero_add] at hsome ⊢
      split_ifs at hsome ⊢ with hin
      · have hpos : 0 < (untilMs - p.dueMs + 1) / blockMs := div_pos (by linarith [hin.2]) hblock
        rw [Nat.cast_one]
        linarith
      · exact absurd hsome (Nat.lt_irrefl 0)
    · have hcount := ih hnext hrest hlater
      split_ifs
      · rw [Nat.cast_add, Nat.cast_one]
        linarith
      · rw [Nat.add_zero]
        linarith

/-- The blocks of an interval. After the first of them the deadline is no further back than the
bound on the lag. -/
theorem releasedBetween_le (hblock : 0 < blockMs) (hlag : 0 ≤ maxLagMs) {fromMs untilMs : K}
    (hle : fromMs ≤ untilMs) (hexec : (syntheticFeed blockMs maxLagMs).exec p laps = some q) :
    (releasedBetween fromMs untilMs laps : K) ≤
      (untilMs - fromMs + maxLagMs + 1) / blockMs + 2 := by
  have hroom : 0 ≤ (untilMs - fromMs + maxLagMs + 1) / blockMs :=
    div_nonneg (by linarith) hblock.le
  induction laps generalizing p with
  | nil =>
    rw [releasedBetween, List.countP_nil, Nat.cast_zero]
    linarith
  | cons lap laps ih =>
    obtain ⟨next, hstep, hrest⟩ := Option.bind_eq_some_iff.mp hexec
    rw [releasedBetween_cons]
    split_ifs with hin
    · obtain ⟨⟨-, hread⟩, hdue, hnext⟩ := syntheticFeed_step hstep
      have hanchored : lap.nowMs - maxLagMs ≤ next.dueMs := hdue ▸ nextSyntheticPace_anchored hlag
      rw [Nat.cast_add, Nat.cast_one]
      rcases Nat.eq_zero_or_pos (releasedBetween fromMs untilMs laps) with hnone | hlater
      · rw [hnone, Nat.cast_zero]
        linarith
      · have hcount := released_before hblock hlag fromMs untilMs hnext hrest hlater
        have hwindow : (untilMs - next.dueMs + 1) / blockMs ≤
            (untilMs - fromMs + maxLagMs + 1) / blockMs :=
          div_le_div_of_nonneg_right (by linarith [hin.1]) hblock.le
        linarith
    · exact ih hrest

theorem due_of_lagWithin (hexec : (syntheticFeed blockMs maxLagMs).exec p laps = some q)
    (hlags : (syntheticFeed blockMs maxLagMs).AlongSteps (LagWithin blockMs maxLagMs) p laps) :
    q.dueMs = p.dueMs + laps.length * blockMs := by
  induction laps generalizing p with
  | nil =>
    obtain rfl := Option.some.inj hexec
    rw [List.length_nil, Nat.cast_zero, zero_mul, add_zero]
  | cons lap laps ih =>
    obtain ⟨next, hstep, hrest⟩ := Option.bind_eq_some_iff.mp hexec
    have hdue : next.dueMs = p.dueMs + blockMs :=
      (syntheticFeed_step hstep).2.1.trans (nextSyntheticPace_of_le (hlags.head hstep))
    rw [ih hrest (hlags.tail hstep), hdue, List.length_cons, Nat.cast_add, Nat.cast_one]
    ring

/-- **Headline.** Of every run, whatever the sleeps and the clock: the blocks that go out in an
interval are bounded by its length, and the deadline is the start and a block for every lap so far,
as long as no lag has been above the bound. -/
theorem syntheticFeed_paced (hblock : 0 < blockMs) (hlag : 0 ≤ maxLagMs) {startMs : K}
    (hexec : (syntheticFeed blockMs maxLagMs).exec (.start startMs) laps = some q) :
    (∀ fromMs lengthMs, 0 ≤ lengthMs → (releasedBetween fromMs (fromMs + lengthMs) laps : K) ≤
        (lengthMs + maxLagMs + 1) / blockMs + 2) ∧
      ((syntheticFeed blockMs maxLagMs).AlongSteps (LagWithin blockMs maxLagMs) (.start startMs)
          laps →
        q.dueMs = startMs + laps.length * blockMs) := by
  refine ⟨fun fromMs lengthMs hlength => ?_, due_of_lagWithin hexec⟩
  have hbound := releasedBetween_le hblock hlag (le_add_of_nonneg_right hlength : fromMs ≤ _) hexec
  rwa [add_sub_cancel_left] at hbound

/-- Four blocks of ten milliseconds, and a sleep that ends forty late: the next three go out at
once, and the deadline has not moved. -/
theorem syntheticFeed_paced_late :
    ∃ q : FeedPoint ℚ, (syntheticFeed 10 50).exec (.start 0) lateLaps = some q ∧
      (releasedBetween 50 60 lateLaps : ℚ) ≤ (10 + 50 + 1) / 10 + 2 ∧
      q.dueMs = 0 + lateLaps.length * 10 := by
  have hexec : (syntheticFeed 10 50).exec (.start (0 : ℚ)) lateLaps = some ⟨40, 51⟩ := by
    decide +kernel
  obtain ⟨hburst, hdue⟩ := syntheticFeed_paced (by norm_num) (by norm_num) hexec
  have hcount := hburst 50 10 (by norm_num)
  have hinterval : (50 : ℚ) + 10 = 60 := by norm_num
  rw [hinterval] at hcount
  have hlags : (syntheticFeed 10 50).AlongSteps (LagWithin 10 50) (.start (0 : ℚ)) lateLaps := by
    decide +kernel
  exact ⟨_, hexec, hcount, hdue hlags⟩

end Runs

/-- A bound on the lag below zero: the clock is always the deadline, and nothing sleeps. -/
theorem syntheticFeed_unpaced :
    ¬ ∀ (blockMs maxLagMs startMs : ℚ) (laps : List (FeedLap ℚ)) (q : FeedPoint ℚ), 0 < blockMs →
      (syntheticFeed blockMs maxLagMs).exec (.start startMs) laps = some q →
      (∀ fromMs lengthMs, 0 ≤ lengthMs → (releasedBetween fromMs (fromMs + lengthMs) laps : ℚ) ≤
          (lengthMs + maxLagMs + 1) / blockMs + 2) ∧
        ((syntheticFeed blockMs maxLagMs).AlongSteps (LagWithin blockMs maxLagMs) (.start startMs)
            laps →
          q.dueMs = startMs + laps.length * blockMs) := by
  intro hall
  obtain ⟨hburst, -⟩ := hall 1 (-2) 0 (List.replicate 5 ⟨0, 0⟩) ⟨0, 0⟩ one_pos (by decide +kernel)
  have hcount := hburst 0 0 le_rfl
  have hfive : releasedBetween (0 : ℚ) (0 + 0) (List.replicate 5 ⟨0, 0⟩) = 5 := by decide +kernel
  rw [hfive] at hcount
  norm_num at hcount

end RtaTool
