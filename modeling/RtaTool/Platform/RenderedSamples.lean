import RtaTool.Platform.OutputEngineThreads

/-!
# What `renderedSamples` counts

`renderedSamples()` is to say how many samples have been rendered since the last `armSource`. The
message thread zeroes the counter and then raises the flag, and the audio thread adds each chunk to
it when the chunk is done. A block that began before the arm may have chunks left, and adds them to
the counter that was zeroed for the next source.

Three words of bookkeeping go along with the threads, that no step reads: the samples rendered
since the flag was last raised by blocks that began after it, whether the block in flight began
before it, and the samples rendered since the counter was last zeroed. An arm is over when the flag
is raised. The chunk is one step: an arm between the end of its processing and its `fetch_add` is,
for the counter, an arm before the chunk.

## Main definitions

* `ArmRun`, `armRuns` -- the machine
* `CountsSinceArm` -- the property, on steps
* `ArmsApart` -- the condition, on steps

## Main results

* `renderedSamples_step` -- what a step does to the counter
* `renderedSamples_sinceArm_iff` -- the two are equivalent along every run
-/

namespace RtaTool

namespace OutputEngine

variable {Src Spec : Type}

/-! ### The counter -/

/-- The samples of the next chunk of a block in flight. -/
def CbPc.chunk : CbPc → ℕ
  | .rendering _ remaining => min remaining kScratchCapacity
  | _ => 0

/-- A step zeroes the counter, adds a chunk to it, or leaves it alone. -/
theorem renderedSamples_step [AudioSource Src] {build : Spec → ℚ → Option Src}
    {s t : Threads Src} {act : ThreadAct Spec}
    (h : (engineThreads build).step s act = some t) :
    (act = .message .zeroCounter ∧ t.engine.renderedSamples = 0) ∨
    (act = .callback .chunk ∧ 0 < s.cb.chunk ∧ s.cb.chunk ≤ kScratchCapacity ∧
      t.engine.renderedSamples = s.engine.renderedSamples + UInt64.ofNat s.cb.chunk) ∨
    (act ≠ .message .zeroCounter ∧ act ≠ .callback .chunk ∧
      t.engine.renderedSamples = s.engine.renderedSamples) := by
  obtain ⟨a, rfl, hm, -, -⟩ | ⟨a, rfl, hd, -, -⟩ | ⟨a, rfl, hc, -, -⟩ :=
    engineThreads_step_cases h
  · generalize s.msg = pc at hm
    generalize t.msg = pc' at hm
    generalize t.engine = e' at hm ⊢
    cases hm with
    | zeroCounter => exact .inl ⟨rfl, rfl⟩
    | _ => exact .inr (.inr ⟨by simp, by simp, rfl⟩)
  · generalize s.dev = pc at hd
    generalize t.dev = pc' at hd
    generalize t.engine = e' at hd ⊢
    cases hd with
    | _ => exact .inr (.inr ⟨by simp, by simp, rfl⟩)
  · generalize s.cb = pc at hc ⊢
    generalize t.cb = pc' at hc
    generalize t.engine = e' at hc ⊢
    cases hc with
    | chunk channels remaining hr =>
      have hcap : 0 < kScratchCapacity := by decide
      exact .inr (.inl ⟨rfl, Nat.lt_min.mpr ⟨Nat.pos_of_ne_zero hr, hcap⟩, min_le_right _ _, rfl⟩)
    | _ => exact .inr (.inr ⟨by simp, by simp, rfl⟩)

/-! ### The runs -/

/-- The threads, the samples rendered since the flag was last raised by blocks that began after
it, whether the block in flight began before it, and the samples rendered since the counter was
last zeroed. -/
structure ArmRun (Src : Type) where
  threads : Threads Src
  sinceArm : ℕ := 0
  beganBefore : Bool := false
  sinceZero : ℕ := 0

namespace ArmRun

/-- From the constructor on. -/
def start : ArmRun Src := { threads := ⟨make, .idle, .idle, .idle⟩ }

/-- The bookkeeping of a step that leads to `t`. -/
def next (s : ArmRun Src) (t : Threads Src) : ThreadAct Spec → ArmRun Src
  | .message .zeroCounter => { s with threads := t, sinceZero := 0 }
  | .message .storeArmed => { s with threads := t, sinceArm := 0, beganBefore := true }
  | .callback (.decide _ _) => { s with threads := t, beganBefore := false }
  | .callback .chunk =>
    { s with
      threads := t
      sinceArm := if s.beganBefore then s.sinceArm else s.sinceArm + s.threads.cb.chunk
      sinceZero := s.sinceZero + s.threads.cb.chunk }
  | _ => { s with threads := t }

end ArmRun

/-- Every interleaving of the three threads, with the bookkeeping. -/
def armRuns [AudioSource Src] (build : Spec → ℚ → Option Src) :
    Machine (ArmRun Src) (ThreadAct Spec) where
  init s := s = .start
  step s a := ((engineThreads build).step s.threads a).map fun t => s.next t a

namespace ArmRun

/-- The counter does not exceed the samples rendered since the most recent arm by blocks that began
after it. -/
def CountsSinceArm (_ : ArmRun Src) (_ : ThreadAct Spec) (t : ArmRun Src) : Prop :=
  t.threads.engine.renderedSamples.toNat ≤ t.sinceArm

/-- A chunk is rendered only by a block that began after the most recent arm, and the flag is raised
only if nothing has been rendered since the counter was zeroed, or a multiple of what it wraps
at. -/
def ArmsApart (s : ArmRun Src) (a : ThreadAct Spec) (_ : ArmRun Src) : Prop :=
  (a = .callback .chunk → s.beganBefore = false) ∧
    (a = .message .storeArmed → 2 ^ 64 ∣ s.sinceZero)

/-- The counter against the bookkeeping. -/
structure Inv (s : ArmRun Src) : Prop where
  counts : s.threads.engine.renderedSamples.toNat ≤ s.sinceArm
  stale : s.beganBefore = true → s.sinceArm = 0
  wraps : s.threads.engine.renderedSamples.toNat = s.sinceZero % 2 ^ 64

theorem inv_start : (start : ArmRun Src).Inv where
  counts := le_rfl
  stale := by
    intro h
    exact absurd h Bool.false_ne_true
  wraps := rfl

variable [AudioSource Src] {build : Spec → ℚ → Option Src} {s t : ArmRun Src}
  {act : ThreadAct Spec}

theorem toNat_add_chunk (c : UInt64) {n : ℕ} (hn : n ≤ kScratchCapacity) :
    (c + UInt64.ofNat n).toNat = (c.toNat + n) % 2 ^ 64 := by
  have hlt : n < 2 ^ 64 := lt_of_le_of_lt hn (by decide)
  rw [UInt64.toNat_add, UInt64.toNat_ofNat', Nat.mod_eq_of_lt hlt]

theorem armRuns_step_cases (h : (armRuns build).step s act = some t) :
    (act = .message .zeroCounter ∧ t.threads.engine.renderedSamples = 0 ∧
      t.sinceArm = s.sinceArm ∧ t.beganBefore = s.beganBefore ∧ t.sinceZero = 0) ∨
    (act = .message .storeArmed ∧
      t.threads.engine.renderedSamples = s.threads.engine.renderedSamples ∧
      t.sinceArm = 0 ∧ t.sinceZero = s.sinceZero) ∨
    (act = .callback .chunk ∧ ∃ n, 0 < n ∧ n ≤ kScratchCapacity ∧
      t.threads.engine.renderedSamples = s.threads.engine.renderedSamples + UInt64.ofNat n ∧
      t.sinceArm = (if s.beganBefore then s.sinceArm else s.sinceArm + n) ∧
      t.beganBefore = s.beganBefore ∧ t.sinceZero = s.sinceZero + n) ∨
    (act ≠ .message .storeArmed ∧ act ≠ .callback .chunk ∧
      t.threads.engine.renderedSamples = s.threads.engine.renderedSamples ∧
      t.sinceArm = s.sinceArm ∧ (t.beganBefore = true → s.beganBefore = true) ∧
      t.sinceZero = s.sinceZero) := by
  obtain ⟨u, hu, rfl⟩ := Option.map_eq_some_iff.mp h
  obtain ⟨rfl, hcount⟩ | ⟨rfl, hpos, hcap, hcount⟩ | ⟨hzero, hchunk, hcount⟩ :=
    renderedSamples_step hu
  · exact .inl ⟨rfl, hcount, rfl, rfl, rfl⟩
  · exact .inr (.inr (.inl ⟨rfl, s.threads.cb.chunk, hpos, hcap, hcount, rfl, rfl, rfl⟩))
  · by_cases harm : act = .message .storeArmed
    · subst harm
      exact .inr (.inl ⟨rfl, hcount, rfl, rfl⟩)
    · refine .inr (.inr (.inr ⟨harm, hchunk, ?_⟩))
      cases act with
      | device a => exact ⟨hcount, rfl, id, rfl⟩
      | message a =>
        cases a with
        | zeroCounter => exact absurd rfl hzero
        | storeArmed => exact absurd rfl harm
        | _ => exact ⟨hcount, rfl, id, rfl⟩
      | callback a =>
        cases a with
        | chunk => exact absurd rfl hchunk
        | publish => exact ⟨hcount, rfl, id, rfl⟩
        | decide channels samples =>
          exact ⟨hcount, rfl, fun hstale => absurd hstale Bool.false_ne_true, rfl⟩

theorem Inv.countsSinceArm_iff (hs : s.Inv) (h : (armRuns build).step s act = some t) :
    CountsSinceArm s act t ↔ ArmsApart s act t := by
  rw [CountsSinceArm, ArmsApart]
  obtain ⟨rfl, hcount, harm, -, -⟩ | ⟨rfl, hcount, harm, -⟩ |
    ⟨rfl, n, hpos, hcap, hcount, harm, -, -⟩ | ⟨hne, hne', hcount, harm, -, -⟩ :=
    armRuns_step_cases h
  · rw [hcount]
    simp
  · rw [hcount, harm, hs.wraps, Nat.le_zero, Nat.dvd_iff_mod_eq_zero]
    simp
  · rw [hcount, harm, toNat_add_chunk _ hcap]
    cases hstale : s.beganBefore with
    | false =>
      have hle := hs.counts
      simp only [Bool.false_eq_true, if_false]
      constructor
      · intro _
        simp
      · intro _
        exact (Nat.mod_le _ _).trans (by omega)
    | true =>
      -- a block from before the arm: nothing has been counted, and now its chunk is
      have hzero := hs.stale hstale
      have hnone : s.threads.engine.renderedSamples.toNat = 0 := by
        have hle := hs.counts
        omega
      have hlt : n < 2 ^ 64 := lt_of_le_of_lt hcap (by decide)
      rw [if_pos rfl, hzero, hnone, Nat.zero_add, Nat.mod_eq_of_lt hlt]
      constructor
      · intro hle
        omega
      · intro hok
        exact absurd (hok.1 rfl) (by simp)
  · rw [hcount, harm]
    constructor
    · intro _
      exact ⟨fun hact => absurd hact hne', fun hact => absurd hact hne⟩
    · intro _
      exact hs.counts

theorem Inv.step (hs : s.Inv) (h : (armRuns build).step s act = some t)
    (hok : ArmsApart s act t) : t.Inv := by
  have hcounts := (hs.countsSinceArm_iff h).mpr hok
  refine ⟨hcounts, ?_, ?_⟩
  · intro hstale
    obtain ⟨rfl, -, harm, hbegan, -⟩ | ⟨rfl, -, harm, -⟩ | ⟨rfl, n, -, -, -, harm, hbegan, -⟩ |
      ⟨-, -, -, harm, hbegan, -⟩ := armRuns_step_cases h
    · rw [harm]
      exact hs.stale (hbegan ▸ hstale)
    · exact harm
    · rw [hbegan] at hstale
      rw [harm, if_pos hstale]
      exact hs.stale hstale
    · rw [harm]
      exact hs.stale (hbegan hstale)
  · obtain ⟨rfl, hcount, -, -, hzero⟩ | ⟨rfl, hcount, -, hzero⟩ |
      ⟨rfl, n, -, hcap, hcount, -, -, hzero⟩ | ⟨-, -, hcount, -, -, hzero⟩ := armRuns_step_cases h
    · rw [hcount, hzero]
      rfl
    · rw [hcount, hzero]
      exact hs.wraps
    · rw [hcount, hzero, toNat_add_chunk _ hcap, hs.wraps, Nat.mod_add_mod]
    · rw [hcount, hzero]
      exact hs.wraps

/-- **Headline.** Along every interleaving of the message, device and audio threads the counter
stays within the samples rendered since the most recent arm exactly if no arm lands inside a block
that goes on to render: no chunk comes from a block that began before it, and none falls between
its zeroing of the counter and its raising of the flag. -/
theorem renderedSamples_sinceArm_iff (build : Spec → ℚ → Option Src)
    (acts : List (ThreadAct Spec)) :
    (armRuns build).AlongSteps CountsSinceArm .start acts ↔
      (armRuns build).AlongSteps ArmsApart .start acts := by
  apply Machine.alongSteps_iff Inv
  · intro s a t hs h hok
    exact hs.step h hok
  · intro s a t hs h
    exact hs.countsSinceArm_iff h
  · exact inv_start

end ArmRun

/-- A source is installed and armed, and its first block begins; it is disarmed, the next source is
installed and armed, and then the block renders its chunk of 64 samples. -/
def armInsideBlock : List (ThreadAct (Option Bool)) :=
  [.message .readRate, .message (.build (some true)), .message .loadPublishedIdle,
    .message .loadArmed, .message .storeSlot, .message .loadOutputEpoch,
    .message .storeSlotEpoch, .message .zeroCounter, .message .storeArmed,
    .callback (.decide 2 64), .message .disarm,
    .message .readRate, .message (.build (some false)), .message .loadPublishedIdle,
    .message .loadArmed, .message .storeSlot, .message .loadOutputEpoch,
    .message .storeSlotEpoch, .message .zeroCounter, .message .storeArmed,
    .callback .chunk]

theorem renderedSamples_countsStale : ∃ t : ArmRun (RatedSource Bool),
    (armRuns RatedSource.build).exec .start armInsideBlock = some t ∧
      t.sinceArm = 0 ∧ t.threads.engine.renderedSamples = 64 :=
  ⟨_, rfl, rfl, rfl⟩

end OutputEngine

end RtaTool
