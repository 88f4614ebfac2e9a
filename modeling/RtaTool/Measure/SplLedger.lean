import RtaTool.Lib.Machine
import RtaTool.Measure.SplSession

/-!
# What becomes of every sample

A sample given to a meter is measured in a block, or it is still in the block being filled, or it
was in a block that had to be given up and is counted as dropped on a later one. A drop that was
noted rides a block in the same way. So the blocks that have been taken, the blocks that wait and
the block being filled account for all that was pushed and all that was noted.

The counter of the drops has 32 bits, and the account is right as long as the drops that ride the
open block fit. How many they are after a hop is a matter of the clock (`pendingDrops`): a block
that is given up hands its own drops on to the next.

A logged channel has one such account for every weighting. What it notes on each is the growth of
the drop count of its bus, since the first one it saw.

## Main definitions

* `Block.span`, `SplMeter.held` -- what a block, or a meter, accounts for
* `pendingDrops` -- the drops on the open block after so many samples
* `meterRuns`, `sessionRuns` -- a meter, and a logged channel, with what was put into them
* `MeterRun.DropsFit`, `SessionRun.DropsFit` -- the counter has room, on steps

## Main results

* `SplMeter.push_held` -- a hop adds its length to what the meter accounts for
* `samples_accounted` -- the account, along every run of a meter and of a session
-/

namespace RtaTool

/-- The samples a block accounts for: those it measured, and those it knows were lost. -/
def Block.span (b : Block) : ℕ := b.blockSamples + b.droppedSamples

/-- The samples some blocks account for. -/
def spans (blocks : List Block) : ℕ := (blocks.map Block.span).sum

@[simp] theorem spans_nil : spans [] = 0 := rfl

@[simp] theorem spans_cons (b : Block) (blocks : List Block) :
    spans (b :: blocks) = b.span + spans blocks :=
  List.sum_cons

@[simp] theorem spans_append (as bs : List Block) : spans (as ++ bs) = spans as + spans bs := by
  rw [spans, List.map_append, List.sum_append]
  rfl

/-! ### The accumulator -/

namespace BlockAccumulator

theorem noteDroppedSamples_droppedSamples {acc : BlockAccumulator} {count : ℕ}
    (hfits : acc.droppedSamples + count < 2 ^ 32) :
    (acc.noteDroppedSamples count).droppedSamples = acc.droppedSamples + count := by
  rw [noteDroppedSamples]
  split
  · rename_i hzero
    rw [hzero, Nat.add_zero]
  · exact Nat.mod_eq_of_lt hfits

theorem pushSamples_ledger (math : MeterMath) (acc : BlockAccumulator) (xs : List (ℚ × ℚ))
    (hready : acc.ready = []) (hroom : acc.pending + xs.length ≤ acc.blockSamples) :
    (acc.pending + xs.length < acc.blockSamples ∧ (acc.pushSamples math xs).1.ready = [] ∧
        (acc.pushSamples math xs).1.droppedSamples = acc.droppedSamples) ∨
      (acc.pending + xs.length = acc.blockSamples ∧
        (acc.pushSamples math xs).1.droppedSamples = 0 ∧
        ∃ b, (acc.pushSamples math xs).1.ready = [b] ∧
          b.blockSamples = acc.blockSamples ∧ b.droppedSamples = acc.droppedSamples) := by
  induction xs generalizing acc with
  | nil => exact .inl ⟨acc.pending_lt, hready, rfl⟩
  | cons xp xs ih =>
    obtain ⟨x, p⟩ := xp
    rw [pushSamples_cons math hready]
    dsimp only
    rw [List.length_cons] at hroom ⊢
    by_cases h : acc.pending + 1 < acc.blockSamples
    · rw [sample_open math h]
      have hadd : acc.pending + 1 + xs.length = acc.pending + (xs.length + 1) := by omega
      have hnext := ih { acc.accumulate x p with
        pending := acc.pending + 1, pending_lt := h } hready (hadd.trans_le hroom)
      rw [← hadd]
      exact hnext
    · rw [sample_full math h]
      have hlt := acc.pending_lt
      obtain rfl : xs = [] := List.eq_nil_of_length_eq_zero (by omega)
      refine .inr ⟨?_, rfl, (acc.accumulate x p).closed math, ?_, rfl, rfl⟩
      · rw [List.length_nil]
        omega
      · show acc.ready ++ _ = _
        rw [hready]
        rfl

/-- The same of a weighted and a peak stream of one length, with what becomes of the clock. -/
theorem push_ledger (math : MeterMath) (acc : BlockAccumulator) {xs ps : List ℚ}
    (hlen : xs.length = ps.length) (hready : acc.ready = [])
    (hroom : acc.pending + xs.length ≤ acc.blockSamples) :
    (acc.pending + xs.length < acc.blockSamples ∧ (acc.push math xs ps).1.ready = [] ∧
        (acc.push math xs ps).1.droppedSamples = acc.droppedSamples) ∨
      (acc.pending + xs.length = acc.blockSamples ∧ (acc.push math xs ps).1.droppedSamples = 0 ∧
        ∃ b, (acc.push math xs ps).1.ready = [b] ∧
          b.blockSamples = acc.blockSamples ∧ b.droppedSamples = acc.droppedSamples) := by
  have hzip : (xs.zip ps).length = xs.length := by rw [List.length_zip, hlen, Nat.min_self]
  have h := acc.pushSamples_ledger math (xs.zip ps) hready (by rwa [hzip])
  rw [push, if_neg (not_not.mpr hlen)]
  rwa [hzip] at h

end BlockAccumulator

/-! ### The drops on the open block -/

/-- The drops that ride the open block after `samples` more, in a meter where `waiting` blocks wait
and `drops` ride it now. Once the buffer is full every block that closes is given up. -/
def pendingDrops (blockSamples pending drops waiting samples : ℕ) : ℕ :=
  let closes := SplMeter.blocksIn blockSamples pending samples
  if waiting = SplMeter.kScratchSamples then drops + closes * blockSamples
  else if closes = 0 then drops
  else (waiting + closes - SplMeter.kScratchSamples) * blockSamples

theorem pendingDrops_add {b : ℕ} (hb : 0 < b) (p d m n : ℕ) {w : ℕ}
    (hw : w ≤ SplMeter.kScratchSamples) :
    pendingDrops b ((p + m) % b) (pendingDrops b p d w m)
        (min SplMeter.kScratchSamples (w + SplMeter.blocksIn b p m)) n =
      pendingDrops b p d w (m + n) := by
  simp only [pendingDrops, SplMeter.blocksIn_add hb]
  generalize SplMeter.blocksIn b p m = j
  generalize SplMeter.blocksIn b ((p + m) % b) n = k
  generalize SplMeter.kScratchSamples = cap at hw ⊢
  by_cases hfull : w = cap
  · rw [if_pos (by omega), if_pos hfull, if_pos hfull, Nat.add_mul, Nat.add_assoc]
  rw [if_neg hfull, if_neg hfull]
  by_cases hj : j = 0
  · rw [hj, if_pos rfl, if_neg (by omega), Nat.zero_add]
    split
    · rfl
    · congr 2
      omega
  rw [if_neg hj, if_neg (show ¬ j + k = 0 by omega)]
  by_cases hover : cap ≤ w + j
  · rw [if_pos (by omega), ← Nat.add_mul]
    congr 1
    omega
  · rw [if_neg (by omega)]
    split
    · rw [show w + j - cap = w + (j + k) - cap by omega]
    · congr 1
      omega

/-- On the way the drops are those at the start, or no more than at the end. -/
theorem pendingDrops_le {b : ℕ} (hb : 0 < b) (p d w m n : ℕ) :
    pendingDrops b p d w m ≤ max d (pendingDrops b p d w (m + n)) := by
  simp only [pendingDrops, SplMeter.blocksIn_add hb]
  generalize SplMeter.blocksIn b p m = j
  generalize SplMeter.blocksIn b ((p + m) % b) n = k
  by_cases hfull : w = SplMeter.kScratchSamples
  · rw [if_pos hfull, if_pos hfull, Nat.add_mul]
    omega
  rw [if_neg hfull, if_neg hfull]
  by_cases hj : j = 0
  · rw [if_pos hj]
    exact Nat.le_max_left _ _
  · rw [if_neg hj, if_neg (show ¬ j + k = 0 by omega)]
    refine le_trans (Nat.mul_le_mul_right b ?_) (Nat.le_max_right _ _)
    omega

/-! ### The meter -/

namespace SplMeter

variable {Filter : Type}

/-- What a meter accounts for and has not handed out: the waiting blocks, the samples of the open
block, and the drops that ride it. -/
def held (m : SplMeter Filter) : ℕ :=
  spans m.readyBuffer + spans m.accumulator.ready + m.accumulator.pending +
    m.accumulator.droppedSamples

/-- The drops on the open block after a hop of so many samples. -/
def dropsAfter (m : SplMeter Filter) (samples : ℕ) : ℕ :=
  pendingDrops m.accumulator.blockSamples m.accumulator.pending m.accumulator.droppedSamples
    m.readyBuffer.length samples

/-- The account of a meter that took some samples: they have been added, the drops on the open block
are counted exactly, and the blocks that came to wait are all of the meter's length. -/
structure LedgerAfter (m m' : SplMeter Filter) (samples : ℕ) : Prop where
  clock : ClockAfter m m' samples
  drops : m'.accumulator.droppedSamples = m.dropsAfter samples
  held : m'.held = m.held + samples
  lengths : ∀ b ∈ m'.readyBuffer, b ∈ m.readyBuffer ∨ b.blockSamples = m.accumulator.blockSamples

theorem drain_ledger (m : SplMeter Filter) (b : Block) (hempty : m.accumulator.droppedSamples = 0)
    (hfits : m.readyBuffer.length < kScratchSamples ∨ b.span < 2 ^ 32) :
    (drain m [b]).accumulator.droppedSamples =
        (if m.readyBuffer.length < kScratchSamples then 0 else b.span) ∧
      (drain m [b]).held = m.held + b.span ∧
      ∀ c ∈ (drain m [b]).readyBuffer, c ∈ m.readyBuffer ∨ c = b := by
  rw [drain]
  by_cases hroom : m.readyBuffer.length < kScratchSamples
  · rw [if_pos hroom, if_pos hroom, drain, held, held, spans_append, spans_cons, spans_nil]
    refine ⟨hempty, ?_, fun c hc => ?_⟩
    · dsimp only
      omega
    · exact (List.mem_append.mp hc).imp_right List.mem_singleton.mp
  · rw [if_neg hroom, if_neg hroom, drain]
    have hspan : b.span < 2 ^ 32 := hfits.resolve_left hroom
    have hnoted : ((m.accumulator.setFlag droppedFlag).noteDroppedSamples
        (b.span % 2 ^ 32)).droppedSamples = b.span := by
      rw [Nat.mod_eq_of_lt hspan, BlockAccumulator.noteDroppedSamples_droppedSamples]
      · exact (congrArg (· + b.span) hempty).trans (Nat.zero_add _)
      · show m.accumulator.droppedSamples + b.span < 2 ^ 32
        rwa [hempty, Nat.zero_add]
    obtain ⟨-, hp, hr⟩ := (m.accumulator.setFlag droppedFlag).noteDroppedSamples_clock
      (b.span % 2 ^ 32)
    refine ⟨hnoted, ?_, fun c hc => .inl hc⟩
    rw [held, held, hempty, Nat.add_zero]
    exact congrArg₂ (· + ·) (congrArg₂ (· + ·) (congrArg (_ + spans ·) hr) hp) hnoted

variable {m : SplMeter Filter}

theorem pushSegment_ledger [WeightingFilter Filter] (segment : List ℚ)
    (hready : m.accumulator.ready = []) (hcap : m.readyBuffer.length ≤ kScratchSamples)
    (hroom : m.accumulator.pending + segment.length ≤ m.accumulator.blockSamples)
    (hfits : m.dropsAfter segment.length < 2 ^ 32) :
    LedgerAfter m (m.pushSegment segment).1 segment.length := by
  obtain ⟨-, hclock⟩ := pushSegment_clock segment hready hcap hroom
  suffices h : (m.pushSegment segment).1.accumulator.droppedSamples = m.dropsAfter segment.length ∧
      (m.pushSegment segment).1.held = m.held + segment.length ∧
      ∀ b ∈ (m.pushSegment segment).1.readyBuffer,
        b ∈ m.readyBuffer ∨ b.blockSamples = m.accumulator.blockSamples from
    ⟨hclock, h.1, h.2.1, h.2.2⟩
  have hlen : (weigh m.mainWeighting segment).2.length =
      (weigh m.peakWeighting segment).2.length := by rw [length_weigh, length_weigh]
  rw [dropsAfter, pendingDrops, blocksIn] at hfits ⊢
  rw [pushSegment]
  dsimp only at hfits ⊢
  obtain ⟨acc, hacc⟩ : ∃ acc, acc = if (overload m.overloadRun segment).2 then
    m.accumulator.setFlag overloadFlag else m.accumulator := ⟨_, rfl⟩
  have hbs : acc.blockSamples = m.accumulator.blockSamples := by rw [hacc]; split <;> rfl
  have hp : acc.pending = m.accumulator.pending := by rw [hacc]; split <;> rfl
  have hr : acc.ready = [] := by rw [hacc]; split <;> exact hready
  have hds : acc.droppedSamples = m.accumulator.droppedSamples := by rw [hacc]; split <;> rfl
  rw [← hacc]
  have hpush := acc.push_ledger (WeightingFilter.math Filter) hlen hr
    (by rw [length_weigh, hbs, hp]; exact hroom)
  obtain ⟨-, -, hpending, -⟩ := acc.push_of_room (WeightingFilter.math Filter) hlen hr
    (by rw [length_weigh, hbs, hp]; exact hroom)
  rw [length_weigh, hbs, hp] at hpending
  rw [length_weigh, hbs, hp, hds] at hpush
  generalize acc.push (WeightingFilter.math Filter) (weigh m.mainWeighting segment).2
    (weigh m.peakWeighting segment).2 = pushed at hpush hpending ⊢
  rcases hpush with ⟨hlt, hnone, hdrops⟩ | ⟨hfull, hdrops, b, hone, hb, hbd⟩
  · -- the block stays open
    rw [hnone, drain, Nat.div_eq_of_lt hlt, Nat.zero_mul, Nat.add_zero, if_pos rfl, ite_self, held,
      held, hready]
    rw [Nat.mod_eq_of_lt hlt] at hpending
    dsimp only
    refine ⟨hdrops, ?_, fun b hb => .inl hb⟩
    rw [hpending, hdrops]
    omega
  · -- the block closes, and is buffered or given up
    have hpos : 0 < m.accumulator.blockSamples := m.accumulator.pending.zero_le.trans_lt
      m.accumulator.pending_lt
    rw [hfull, Nat.div_self hpos, Nat.one_mul, if_neg one_ne_zero] at hfits ⊢
    rw [hfull, Nat.mod_self] at hpending
    have hspan : b.span = m.accumulator.droppedSamples + m.accumulator.blockSamples := by
      rw [Block.span, hb, hbd, Nat.add_comm]
    rw [hone]
    obtain ⟨hcount, hheld, hmem⟩ := drain_ledger
      { (weigh m.mainWeighting segment).2.foldl lnSample m with
        mainWeighting := (weigh m.mainWeighting segment).1
        peakWeighting := (weigh m.peakWeighting segment).1
        accumulator := { pushed.1 with ready := [] }
        overloadRun := (overload m.overloadRun segment).1
        readyBuffer := m.readyBuffer } b hdrops (by
          dsimp only
          rw [hspan]
          split at hfits
          · exact .inr hfits
          · exact .inl (by omega))
    refine ⟨?_, ?_, fun c hc => (hmem c hc).imp_right fun (h : c = b) => h ▸ hb⟩
    · rw [hcount, hspan]
      dsimp only
      by_cases hwait : m.readyBuffer.length = kScratchSamples
      · rw [if_neg (by omega), if_pos hwait]
      · rw [if_pos (by omega), if_neg hwait, show m.readyBuffer.length + 1 - kScratchSamples = 0
          by omega, Nat.zero_mul]
    · rw [hheld, hspan, held, held, hready]
      dsimp only
      rw [hpending, hdrops, spans_nil]
      omega

theorem LedgerAfter.refl (hready : m.accumulator.ready = [])
    (hcap : m.readyBuffer.length ≤ kScratchSamples) : LedgerAfter m m 0 := by
  refine ⟨.refl hready hcap, ?_, rfl, fun b hb => .inl hb⟩
  rw [dropsAfter, pendingDrops, blocksIn, Nat.add_zero, Nat.div_eq_of_lt m.accumulator.pending_lt,
    Nat.zero_mul, Nat.add_zero, if_pos rfl, ite_self]

/-- What is left of a hop starts where a segment of it stopped. -/
theorem LedgerAfter.dropsAfter_add {m m' : SplMeter Filter} {n : ℕ} (h : LedgerAfter m m' n)
    (hcap : m.readyBuffer.length ≤ kScratchSamples) (k : ℕ) :
    m'.dropsAfter k = m.dropsAfter (n + k) := by
  have hb : 0 < m.accumulator.blockSamples := (Nat.zero_le _).trans_lt m.accumulator.pending_lt
  rw [dropsAfter, h.clock.blockSamples, h.clock.pending, h.clock.readyBuffer, h.drops]
  exact pendingDrops_add hb _ _ _ _ hcap

theorem LedgerAfter.trans {m m' t : SplMeter Filter} {n k : ℕ} (h : LedgerAfter m m' n)
    (h' : LedgerAfter m' t k) (hcap : m.readyBuffer.length ≤ kScratchSamples) :
    LedgerAfter m t (n + k) := by
  refine ⟨h.clock.trans h'.clock, h'.drops.trans (h.dropsAfter_add hcap k), ?_, fun b hb => ?_⟩
  · rw [h'.held, h.held, Nat.add_assoc]
  · rcases h'.lengths b hb with hb | hb
    · exact h.lengths b hb
    · exact .inr (hb.trans h.clock.blockSamples)

theorem pushFrom_ledger [WeightingFilter Filter] (fuel : ℕ) (m : SplMeter Filter) (hop : List ℚ)
    (hready : m.accumulator.ready = []) (hcap : m.readyBuffer.length ≤ kScratchSamples)
    (hfuel : hop.length ≤ fuel) (hopen : m.accumulator.droppedSamples < 2 ^ 32)
    (hfits : m.dropsAfter hop.length < 2 ^ 32) :
    LedgerAfter m (pushFrom fuel m hop) hop.length := by
  refine pushFrom_induction (motive := fun m hop t => m.accumulator.droppedSamples < 2 ^ 32 →
      m.dropsAfter hop.length < 2 ^ 32 → LedgerAfter m t hop.length)
    (fun m hready hcap _ _ => .refl hready hcap) ?_ fuel m hop hready hcap hfuel hopen hfits
  intro m t segment rest hready hcap hroom hrest hopen hfits
  rw [List.length_append] at hfits ⊢
  -- the drops on the way fit as well
  have hpart : m.dropsAfter segment.length < 2 ^ 32 := by
    have hb : 0 < m.accumulator.blockSamples := (Nat.zero_le _).trans_lt m.accumulator.pending_lt
    exact (pendingDrops_le hb m.accumulator.pending m.accumulator.droppedSamples
      m.readyBuffer.length segment.length rest.length).trans_lt (max_lt hopen hfits)
  have hseg := pushSegment_ledger segment hready hcap hroom hpart
  exact hseg.trans (hrest (by rwa [hseg.drops]) (by rwa [hseg.dropsAfter_add hcap])) hcap

/-- **What a hop adds to the account**: its length, if the drops on the open block fit. -/
theorem push_ledger [WeightingFilter Filter]
    (hready : m.accumulator.ready = []) (hcap : m.readyBuffer.length ≤ kScratchSamples)
    {hop : List ℚ} (hopen : m.accumulator.droppedSamples < 2 ^ 32)
    (hfits : m.dropsAfter hop.length < 2 ^ 32) : LedgerAfter m (m.push hop) hop.length := by
  have h := pushFrom_ledger hop.length { m with lnTicks := [] } hop hready hcap le_rfl hopen hfits
  exact ⟨push_clock hready hcap hop, h.drops, h.held, h.lengths⟩

theorem noteDroppedSamples_held {count : ℕ}
    (hfits : m.accumulator.droppedSamples + count < 2 ^ 32) :
    (m.noteDroppedSamples count).held = m.held + count := by
  obtain ⟨-, hp, hr⟩ := m.accumulator.noteDroppedSamples_clock count
  have hd := BlockAccumulator.noteDroppedSamples_droppedSamples hfits
  rw [held, noteDroppedSamples, held]
  dsimp only
  rw [hp, hr, hd]
  omega

/-- A block that is taken leaves the account of the meter. -/
theorem poll_held (m : SplMeter Filter) : spans m.poll.1.toList + m.poll.2.held = m.held := by
  rcases m.poll_cases with ⟨b, rest, hbuffer, hpoll⟩ | ⟨b, rest, -, hready, hpoll⟩ | ⟨-, -, hpoll⟩
  · rw [hpoll, held, held, hbuffer, Option.toList_some, spans_cons, spans_cons, spans_nil]
    dsimp only
    omega
  · rw [hpoll, held, held, hready, Option.toList_some, spans_cons, spans_cons, spans_nil]
    dsimp only
    omega
  · rw [hpoll]
    exact Nat.zero_add _

end SplMeter

/-! ### The runs of a meter -/

/-- A meter, the blocks that were taken from it, and how many samples and drops went in. -/
structure MeterRun (Filter : Type) where
  meter : SplMeter Filter
  emitted : List Block
  pushed : ℕ
  noted : ℕ

inductive MeterAct
  | push (hop : List ℚ)
  | noteDroppedSamples (count : ℕ)
  | poll

namespace MeterRun

variable {Filter : Type}

/-- A meter that has just been made. -/
def start [WeightingFilter Filter] (config : SplConfig) (weighting : WeightingType)
    (sampleRate : ℚ) : MeterRun Filter where
  meter := .make config weighting sampleRate
  emitted := []
  pushed := 0
  noted := 0

/-- One call. -/
def next [WeightingFilter Filter] (s : MeterRun Filter) : MeterAct → MeterRun Filter
  | .push hop => { s with meter := s.meter.push hop, pushed := s.pushed + hop.length }
  | .noteDroppedSamples count =>
    { s with meter := s.meter.noteDroppedSamples count, noted := s.noted + count }
  | .poll => { s with meter := s.meter.poll.2, emitted := s.emitted ++ s.meter.poll.1.toList }

/-- The drops that ride the open block after a call fit their counter. -/
def DropsFit (s : MeterRun Filter) (a : MeterAct) (_ : MeterRun Filter) : Prop :=
  match a with
  | .push hop => s.meter.dropsAfter hop.length < 2 ^ 32
  | .noteDroppedSamples count => s.meter.accumulator.droppedSamples + count < 2 ^ 32
  | .poll => True

instance : ∀ (s : MeterRun Filter) (a : MeterAct) (t : MeterRun Filter), Decidable (DropsFit s a t)
  | s, .push hop, _ => inferInstanceAs (Decidable (s.meter.dropsAfter hop.length < 2 ^ 32))
  | s, .noteDroppedSamples count, _ =>
    inferInstanceAs (Decidable (s.meter.accumulator.droppedSamples + count < 2 ^ 32))
  | _, .poll, _ => isTrue trivial

/-- The blocks taken and what the meter still holds account for all that went in. -/
def Accounted (s : MeterRun Filter) : Prop :=
  spans s.emitted + s.meter.held = s.pushed + s.noted

end MeterRun

/-- Every sequence of calls on a new meter. -/
def meterRuns (Filter : Type) [WeightingFilter Filter] (config : SplConfig)
    (weighting : WeightingType) (sampleRate : ℚ) : Machine (MeterRun Filter) MeterAct where
  init s := s = .start config weighting sampleRate
  step s a := some (s.next a)

namespace MeterRun

variable {Filter : Type}

/-- What holds between the calls. -/
structure LedgerInv (s : MeterRun Filter) : Prop where
  ready : s.meter.accumulator.ready = []
  waiting : s.meter.readyBuffer.length ≤ SplMeter.kScratchSamples
  drops : s.meter.accumulator.droppedSamples < 2 ^ 32
  accounted : s.Accounted

section

variable (config : SplConfig) (weighting : WeightingType) (sampleRate : ℚ)

theorem LedgerInv.start [WeightingFilter Filter] :
    LedgerInv (.start config weighting sampleRate : MeterRun Filter) :=
  ⟨rfl, Nat.zero_le _, Nat.two_pow_pos 32, rfl⟩

variable {s : MeterRun Filter}

theorem LedgerInv.push [WeightingFilter Filter] (h : LedgerInv s)
    {hop : List ℚ} (hfits : s.meter.dropsAfter hop.length < 2 ^ 32) :
    LedgerInv (s.next (.push hop)) := by
  obtain ⟨hready, hwaiting, hdrops, haccounted⟩ := h
  have hpush := SplMeter.push_ledger hready hwaiting hdrops hfits
  refine ⟨hpush.clock.ready, ?_, hpush.drops.trans_lt hfits, ?_⟩
  · exact hpush.clock.readyBuffer.trans_le (Nat.min_le_left _ _)
  · rw [Accounted] at haccounted ⊢
    show spans s.emitted + (s.meter.push hop).held = s.pushed + hop.length + s.noted
    rw [hpush.held]
    omega

theorem LedgerInv.noteDroppedSamples [WeightingFilter Filter]
    (h : LedgerInv s) {count : ℕ} (hfits : s.meter.accumulator.droppedSamples + count < 2 ^ 32) :
    LedgerInv (s.next (.noteDroppedSamples count)) := by
  obtain ⟨hready, hwaiting, hdrops, haccounted⟩ := h
  obtain ⟨-, hp, hr⟩ := s.meter.accumulator.noteDroppedSamples_clock count
  have hnoted := BlockAccumulator.noteDroppedSamples_droppedSamples hfits
  refine ⟨hr.trans hready, hwaiting, hnoted.trans_lt hfits, ?_⟩
  rw [Accounted] at haccounted ⊢
  show spans s.emitted + (s.meter.noteDroppedSamples count).held = s.pushed + (s.noted + count)
  rw [SplMeter.noteDroppedSamples_held hfits]
  omega

theorem LedgerInv.poll [WeightingFilter Filter] (h : LedgerInv s) :
    LedgerInv (s.next .poll) := by
  obtain ⟨hready, hwaiting, hdrops, haccounted⟩ := h
  have hshort : s.meter.poll.2.accumulator = s.meter.accumulator ∧
      s.meter.poll.2.readyBuffer.length ≤ s.meter.readyBuffer.length := by
    rcases s.meter.poll_cases with ⟨b, rest, hbuffer, hpoll⟩ | ⟨b, rest, -, hsome, -⟩ |
      ⟨-, -, hpoll⟩
    · rw [hpoll, hbuffer]
      exact ⟨rfl, Nat.le_succ _⟩
    · rw [hready] at hsome
      cases hsome
    · rw [hpoll]
      exact ⟨rfl, le_rfl⟩
  obtain ⟨hacc, hlen⟩ := hshort
  refine ⟨?_, hlen.trans hwaiting, ?_, ?_⟩
  · exact (congrArg (·.ready) hacc).trans hready
  · exact (congrArg (·.droppedSamples) hacc).trans_lt hdrops
  · rw [Accounted] at haccounted ⊢
    show spans (s.emitted ++ s.meter.poll.1.toList) + s.meter.poll.2.held = s.pushed + s.noted
    rw [spans_append, Nat.add_assoc, s.meter.poll_held, haccounted]

/-- **The account of a meter.** After every call of a run in which the drops fit. -/
theorem accounted_of_dropsFit [WeightingFilter Filter] {acts : List MeterAct}
    (hfit : (meterRuns Filter config weighting sampleRate).AlongSteps DropsFit
      (.start config weighting sampleRate) acts) :
    (meterRuns Filter config weighting sampleRate).AlongSteps (fun _ _ t => t.Accounted)
      (.start config weighting sampleRate) acts := by
  refine Machine.AlongSteps.of_invariant LedgerInv ?_
    (LedgerInv.start config weighting sampleRate) hfit
  rintro s a _ h ⟨⟩ hfits
  suffices hnext : LedgerInv (s.next a) from ⟨hnext, hnext.accounted⟩
  cases a with
  | push hop => exact h.push hfits
  | noteDroppedSamples count => exact h.noteDroppedSamples hfits
  | poll => exact h.poll

end

end MeterRun

/-! ### The runs of a session -/

/-- The growth of a count since it was first seen. While a count that fell back is below its highest
it adds nothing. -/
def growth : List ℕ → ℕ
  | [] => 0
  | first :: counts => counts.foldl max first - first

/-- A logged channel, the blocks each of its chains has closed, how many samples it was fed, and the
drop counts of the bus it has seen, in order. -/
structure SessionRun (Filter : Type) where
  session : SplSession Filter
  emitted : WeightingType → List Block
  fed : ℕ
  counts : List ℕ

inductive SessionAct
  | noteDropCount (busDropCount : ℕ)
  | feedHop (hop : List ℚ)

namespace SessionRun

variable {Filter : Type}

/-- A session that has just been started. -/
def start [WeightingFilter Filter] (config : SplConfig) (sampleRate : ℚ) : SessionRun Filter where
  session := .start config sampleRate
  emitted := fun _ => []
  fed := 0
  counts := []

/-- One call. -/
def next [WeightingFilter Filter] (s : SessionRun Filter) : SessionAct → SessionRun Filter
  | .noteDropCount busDropCount =>
    { s with
      session := s.session.noteDropCount busDropCount
      counts := s.counts ++ [busDropCount] }
  | .feedHop hop =>
    { s with
      session := s.session.feedHop hop
      emitted := fun w => s.emitted w ++ (s.session.feedHop hop).newlyClosedBlocks w
      fed := s.fed + hop.length }

/-- The drops that ride the open block of each chain after a call fit their counter. The first
count that is seen notes nothing. -/
def DropsFit (s : SessionRun Filter) (a : SessionAct) (_ : SessionRun Filter) : Prop :=
  match a with
  | .noteDropCount busDropCount =>
    s.session.dropBaselineSet = true → ∀ c ∈ s.session.chains,
      c.meter.accumulator.droppedSamples + (busDropCount - s.session.lastBusDropCount) < 2 ^ 32
  | .feedHop hop => ∀ c ∈ s.session.chains, c.meter.dropsAfter hop.length < 2 ^ 32

instance : ∀ (s : SessionRun Filter) (a : SessionAct) (t : SessionRun Filter),
    Decidable (DropsFit s a t)
  | s, .noteDropCount busDropCount, _ =>
    inferInstanceAs (Decidable (s.session.dropBaselineSet = true → ∀ c ∈ s.session.chains,
      c.meter.accumulator.droppedSamples + (busDropCount - s.session.lastBusDropCount) < 2 ^ 32))
  | s, .feedHop hop, _ =>
    inferInstanceAs (Decidable (∀ c ∈ s.session.chains, c.meter.dropsAfter hop.length < 2 ^ 32))

/-- The drops on the blocks a chain has closed and on its open one. -/
def attributed (s : SessionRun Filter) (c : Chain Filter) : ℕ :=
  ((s.emitted c.weighting).map (·.droppedSamples)).sum + c.meter.accumulator.droppedSamples

/-- On every chain, the blocks and what the meter holds account for all samples and for the growth
of the drop count; and the drops are that growth, and the samples of whole blocks that were never
handed out. -/
def Accounted (s : SessionRun Filter) : Prop :=
  ∀ c ∈ s.session.chains,
    spans (s.emitted c.weighting) + c.meter.held = s.fed + growth s.counts ∧
      s.attributed c + (s.emitted c.weighting).length * c.meter.accumulator.blockSamples =
        growth s.counts +
          s.fed / c.meter.accumulator.blockSamples * c.meter.accumulator.blockSamples

end SessionRun

/-- Every sequence of calls on a session that was started. -/
def sessionRuns (Filter : Type) [WeightingFilter Filter] (config : SplConfig) (sampleRate : ℚ) :
    Machine (SessionRun Filter) SessionAct where
  init s := s = .start config sampleRate
  step s a := some (s.next a)

/-! ### One chain -/

variable {Filter : Type}

/-- The account of one chain: `total` is what went in. -/
structure ChainLedger (b total : ℕ) (closed : List Block) (c : Chain Filter) : Prop where
  drops : c.meter.accumulator.droppedSamples < 2 ^ 32
  account : spans closed + c.meter.held = total
  lengths : ∀ block ∈ closed, block.blockSamples = b

variable {closed : List Block} {c : Chain Filter}

theorem ChainLedger.feedHop [WeightingFilter Filter] {b p total : ℕ}
    (h : ChainLedger b total closed c) (hclock : ChainInv b p closed c)
    {hop : List ℚ} (hfits : c.meter.dropsAfter hop.length < 2 ^ 32) :
    ChainLedger b (total + hop.length) (closed ++ (c.feedHop hop).newlyClosed) (c.feedHop hop) := by
  have hpush := SplMeter.push_ledger hclock.ready (by rw [hclock.readyBuffer]; exact Nat.zero_le _)
    h.drops hfits
  have hnew : (c.feedHop hop).newlyClosed = (c.meter.push hop).readyBuffer := by
    show (c.meter.push hop).readyBuffer ++ (c.meter.push hop).accumulator.ready = _
    rw [hpush.clock.ready, List.append_nil]
  refine ⟨hpush.drops.trans_lt hfits, ?_, fun block hblock => ?_⟩
  · have hheld := hpush.held
    rw [SplMeter.held, hpush.clock.ready] at hheld
    rw [hnew, spans_append, SplMeter.held]
    show spans closed + spans (c.meter.push hop).readyBuffer +
      (0 + 0 + (c.meter.push hop).accumulator.pending +
        (c.meter.push hop).accumulator.droppedSamples) = _
    rw [← h.account]
    rw [spans_nil] at hheld
    omega
  · rcases List.mem_append.mp hblock with hold | hnewly
    · exact h.lengths block hold
    · rw [hnew] at hnewly
      refine ((hpush.lengths block hnewly).resolve_left ?_).trans hclock.blockSamples_eq
      rw [hclock.readyBuffer]
      exact List.not_mem_nil

theorem ChainLedger.noteDroppedSamples {b total : ℕ} (h : ChainLedger b total closed c) {count : ℕ}
    (hfits : c.meter.accumulator.droppedSamples + count < 2 ^ 32) :
    ChainLedger b (total + count) closed { c with meter := c.meter.noteDroppedSamples count } := by
  refine ⟨?_, ?_, h.lengths⟩
  · exact (BlockAccumulator.noteDroppedSamples_droppedSamples hfits).trans_lt hfits
  · rw [← h.account, Nat.add_assoc, ← SplMeter.noteDroppedSamples_held hfits]

theorem ChainLedger.drops_eq {b fed grown : ℕ}
    (h : ChainLedger b (fed + grown) closed c) (hclock : ChainInv b (fed % b) closed c) :
    (closed.map (·.droppedSamples)).sum + c.meter.accumulator.droppedSamples + closed.length * b =
      grown + fed / b * b := by
  have hspans : spans closed = closed.length * b + (closed.map (·.droppedSamples)).sum := by
    have hlengths := h.lengths
    clear h hclock
    induction closed with
    | nil => rw [List.length_nil, Nat.zero_mul]; rfl
    | cons block closed ih =>
      rw [spans_cons, ih fun x hx => hlengths x (List.mem_cons_of_mem _ hx), Block.span,
        hlengths block List.mem_cons_self, List.length_cons, Nat.add_mul, Nat.one_mul, List.map_cons,
        List.sum_cons]
      omega
  have haccount := h.account
  have hfed := Nat.div_add_mod' fed b
  rw [SplMeter.held, hclock.ready, hclock.readyBuffer, hclock.pending_eq, spans_nil, hspans]
    at haccount
  omega

/-! ### The session -/

theorem le_foldl_max (counts : List ℕ) (first : ℕ) : first ≤ counts.foldl max first := by
  induction counts generalizing first with
  | nil => exact le_rfl
  | cons n counts ih => exact (Nat.le_max_left first n).trans (ih _)

namespace SessionRun

/-- What the session remembers of the counts it has seen: the highest. -/
structure SeenCounts (session : SplSession Filter) (counts : List ℕ) : Prop where
  baseline : session.dropBaselineSet = true ↔ counts ≠ []
  last : ∀ first rest, counts = first :: rest →
    session.lastBusDropCount = rest.foldl max first

variable {session : SplSession Filter}

theorem SeenCounts.last_concat {counts : List ℕ}
    (h : SeenCounts session counts) (hne : counts ≠ []) (n : ℕ) {first : ℕ} {rest : List ℕ}
    (heq : counts ++ [n] = first :: rest) :
    rest.foldl max first = max session.lastBusDropCount n := by
  obtain ⟨first', rest', rfl⟩ := List.exists_cons_of_ne_nil hne
  rw [List.cons_append, List.cons.injEq] at heq
  obtain ⟨rfl, rfl⟩ := heq
  rw [h.last first' rest' rfl, List.foldl_append, List.foldl_cons, List.foldl_nil]

theorem SeenCounts.growth_concat {counts : List ℕ}
    (h : SeenCounts session counts) (hne : counts ≠ []) (n : ℕ) :
    growth (counts ++ [n]) = growth counts + (n - session.lastBusDropCount) := by
  obtain ⟨first, rest, rfl⟩ := List.exists_cons_of_ne_nil hne
  have hle := le_foldl_max rest first
  rw [h.last first rest rfl, List.cons_append, growth, growth, List.foldl_append, List.foldl_cons,
    List.foldl_nil]
  omega

/-- What holds between the calls: the chains are in lockstep, and each has its account. -/
structure LedgerInv (config : SplConfig) (b : ℕ) (s : SessionRun Filter) : Prop where
  session : SessionInv config b (s.fed % b) s.emitted s.session
  seen : SeenCounts s.session s.counts
  chains : ∀ c ∈ s.session.chains,
    ChainLedger b (s.fed + growth s.counts) (s.emitted c.weighting) c

variable {config : SplConfig} {b : ℕ} {s : SessionRun Filter}

theorem LedgerInv.start [WeightingFilter Filter] (config : SplConfig) (sampleRate : ℚ) :
    ∃ b, LedgerInv config.truncated b (.start config sampleRate : SessionRun Filter) := by
  have hsession : SessionInv config.truncated _ 0 _ (.start config sampleRate : SplSession Filter) :=
    SessionInv.start config sampleRate
  generalize (BlockAccumulator.make _ _ _).blockSamples = b at hsession
  refine ⟨b, ?_, ⟨?_, ?_⟩, fun c hc => ?_⟩
  · rw [← Nat.zero_mod b] at hsession
    exact hsession
  · exact ⟨fun h => Bool.noConfusion h, fun h => absurd rfl h⟩
  · rintro first rest ⟨⟩
  · obtain ⟨w, -, rfl⟩ := List.mem_map.mp hc
    exact ⟨Nat.two_pow_pos 32, rfl, fun block hblock => absurd hblock List.not_mem_nil⟩

theorem LedgerInv.noteDropCount [WeightingFilter Filter] (h : LedgerInv config b s) {n : ℕ}
    (hfits : s.session.dropBaselineSet = true → ∀ c ∈ s.session.chains,
      c.meter.accumulator.droppedSamples + (n - s.session.lastBusDropCount) < 2 ^ 32) :
    LedgerInv config b (s.next (.noteDropCount n)) := by
  obtain ⟨hsession, hseen, hchains⟩ := h
  suffices hnext : SeenCounts (s.session.noteDropCount n) (s.counts ++ [n]) ∧
      ∀ c ∈ (s.session.noteDropCount n).chains,
        ChainLedger b (s.fed + growth (s.counts ++ [n])) (s.emitted c.weighting) c from
    ⟨hsession.noteDropCount n, hnext.1, hnext.2⟩
  have hbaseline : ∀ session' : SplSession Filter, session'.dropBaselineSet = true →
      (session'.dropBaselineSet = true ↔ s.counts ++ [n] ≠ []) :=
    fun session' hset => ⟨fun _ => List.concat_ne_nil n s.counts, fun _ => hset⟩
  by_cases hset : s.session.dropBaselineSet = true
  · have hne := hseen.baseline.mp hset
    rw [hseen.growth_concat hne, SplSession.noteDropCount, if_neg (by simp [hset])]
    by_cases hle : n ≤ s.session.lastBusDropCount
    · rw [if_pos hle, Nat.sub_eq_zero_of_le hle, Nat.add_zero]
      refine ⟨⟨hbaseline _ hset, fun first rest heq => ?_⟩, hchains⟩
      rw [hseen.last_concat hne n heq, Nat.max_eq_left hle]
    · rw [if_neg hle]
      refine ⟨⟨hbaseline _ hset, fun first rest heq => ?_⟩, fun c' hc' => ?_⟩
      · rw [hseen.last_concat hne n heq, Nat.max_eq_right (Nat.le_of_not_le hle)]
      · obtain ⟨c, hc, rfl⟩ := List.mem_map.mp hc'
        have hfit := hfits hset c hc
        rw [Nat.min_eq_left (by omega), ← Nat.add_assoc]
        exact (hchains c hc).noteDroppedSamples hfit
  · -- the first count is the baseline
    have hnil : s.counts = [] := by
      by_contra hne
      exact hset (hseen.baseline.mpr hne)
    rw [SplSession.noteDropCount, if_pos (by simp [hset]), hnil]
    rw [hnil] at hchains
    refine ⟨⟨by simp, ?_⟩, fun c hc => ?_⟩
    · rintro first rest ⟨⟩
      rfl
    · have hzero : growth ([] ++ [n]) = growth [] := Nat.sub_self n
      rw [hzero]
      exact hchains c hc

theorem LedgerInv.feedHop [WeightingFilter Filter] (h : LedgerInv config b s) {hop : List ℚ}
    (hfits : ∀ c ∈ s.session.chains, c.meter.dropsAfter hop.length < 2 ^ 32) :
    LedgerInv config b (s.next (.feedHop hop)) := by
  obtain ⟨hsession, hseen, hchains⟩ := h
  obtain ⟨-, hfed⟩ := hsession.feedHop hop
  rw [Nat.mod_add_mod] at hfed
  refine ⟨hfed, ⟨hseen.baseline, hseen.last⟩, fun c' hc' => ?_⟩
  obtain ⟨c, hc, rfl⟩ := List.mem_map.mp hc'
  have hchain := (hchains c hc).feedHop (hsession.clock c hc).1 (hfits c hc)
  rw [Nat.add_right_comm] at hchain
  rw [← hsession.newlyClosedBlocks_feedHop hc] at hchain
  exact hchain

theorem LedgerInv.accounted (h : LedgerInv config b s) : s.Accounted := by
  intro c hc
  obtain ⟨hclock, -⟩ := h.session.clock c hc
  refine ⟨(h.chains c hc).account, ?_⟩
  rw [hclock.blockSamples_eq]
  exact (h.chains c hc).drops_eq hclock

end SessionRun

/-- **Headline.** In every run in which the drops on the open block fit their counter: after every
call on a meter, the blocks taken, the blocks that wait and the open block account for exactly what
was pushed and noted; and after every call on a session, on every chain, they account for exactly
what was fed and for the growth of the drop count of the bus. -/
theorem samples_accounted (Filter : Type) [WeightingFilter Filter] (config : SplConfig)
    (sampleRate : ℚ) :
    (∀ (weighting : WeightingType) (acts : List MeterAct),
        (meterRuns Filter config weighting sampleRate).AlongSteps MeterRun.DropsFit
            (.start config weighting sampleRate) acts →
          (meterRuns Filter config weighting sampleRate).AlongSteps (fun _ _ t => t.Accounted)
            (.start config weighting sampleRate) acts) ∧
      ∀ acts : List SessionAct,
        (sessionRuns Filter config sampleRate).AlongSteps SessionRun.DropsFit
            (.start config sampleRate) acts →
          (sessionRuns Filter config sampleRate).AlongSteps (fun _ _ t => t.Accounted)
            (.start config sampleRate) acts := by
  refine ⟨fun weighting acts hfit => ?_, fun acts hfit => ?_⟩
  · exact MeterRun.accounted_of_dropsFit config weighting sampleRate hfit
  · obtain ⟨b, hstart⟩ : ∃ b, SessionRun.LedgerInv config.truncated b
        (.start config sampleRate : SessionRun Filter) :=
      SessionRun.LedgerInv.start config sampleRate
    refine Machine.AlongSteps.of_invariant (SessionRun.LedgerInv config.truncated b) ?_ hstart hfit
    rintro s a _ h ⟨⟩ hfits
    suffices hnext : SessionRun.LedgerInv config.truncated b (s.next a) from
      ⟨hnext, hnext.accounted⟩
    cases a with
    | noteDropCount n => exact h.noteDropCount hfits
    | feedHop hop => exact h.feedHop hfits

/-- Blocks of one sample. -/
def sampleBlocks : SplConfig where
  blockSeconds := 1 / 48000
  metrics := [{ id := bytes "Leq", weighting := .Z }]

/-- A hop of three, one block taken, and a hop that overruns the buffer. -/
def overrunActs : List MeterAct :=
  [.noteDroppedSamples 3, .push [0, 1, 0], .poll, .push (List.replicate 1100 0)]

/-- The count is seen at 5, falls back, and grows to 9. -/
def regrownActs : List SessionAct :=
  [.noteDropCount 5, .feedHop [0, 1], .noteDropCount 4, .noteDropCount 9,
    .feedHop (List.replicate 1100 0)]

theorem samples_accounted_overrun :
    (meterRuns Through sampleBlocks .Z 48000).AlongSteps (fun _ _ t => t.Accounted)
        (.start sampleBlocks .Z 48000) overrunActs ∧
      (sessionRuns Through sampleBlocks 48000).AlongSteps (fun _ _ t => t.Accounted)
        (.start sampleBlocks 48000) regrownActs :=
  ⟨(samples_accounted Through sampleBlocks 48000).1 .Z overrunActs (by decide +kernel),
    (samples_accounted Through sampleBlocks 48000).2 regrownActs (by decide +kernel)⟩

end RtaTool
