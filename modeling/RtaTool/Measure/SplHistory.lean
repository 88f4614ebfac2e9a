import RtaTool.Lib.Machine
import RtaTool.Measure.SplMeter
import Mathlib.Data.List.Induction

/-!
# The history ring and the meter that fills it

`SplHistory` keeps the last blocks of a meter in a ring and finds one by its index: the place is the
distance from the index of the first block that was pushed. That is right as long as the indices
follow one another. A meter whose blocks are not polled gives up those that it has no room for, and
goes on counting; the indices after them are further along than the pushes.

## Main definitions

* `SplBlockRing`, `SplBlockRing.push`, `SplBlockRing.blockAt`
* `Faithful` -- what is looked up is the block of that index, and every retained block is found
* `NumberedOn` -- the retained blocks continue the numbering of the first one
* `historyRuns` -- a meter, polled into a history

## Main results

* `faithful_iff` -- a history is faithful exactly when its blocks are numbered on
* `SplMeter.push_indices` -- which indices wait after a hop
* `history_meets_iff` -- **Headline.** In every run of a meter
* `history_staleBlock` -- 1025 blocks that are not polled, and a block under another one's index
-/

namespace RtaTool

/-! ### The ring -/

/-- A value-initialised `Block`. -/
def Block.initial : Block where
  blockIndex := 0
  blockSamples := 0
  droppedSamples := 0
  sumSquares := 0
  maxFastDb := kLevelFloorDb
  maxSlowDb := kLevelFloorDb
  peakDb := kLevelFloorDb
  flags := 0

/-- `SplHistory`, less its markers. -/
structure SplBlockRing where
  capacity : ℕ
  ring : List Block
  pushedCount : ℕ
  firstIndex : ℕ
  length_ring : ring.length = capacity

namespace SplBlockRing

/-- `SplHistory::SplHistory`. -/
def make (capacityBlocks : ℕ) : SplBlockRing where
  capacity := capacityBlocks
  ring := List.replicate capacityBlocks .initial
  pushedCount := 0
  firstIndex := 0
  length_ring := List.length_replicate

/-- `push`. -/
def push (h : SplBlockRing) (block : Block) : SplBlockRing :=
  if h.capacity = 0 then h
  else
    { capacity := h.capacity
      ring := h.ring.set (h.pushedCount % h.capacity) block
      pushedCount := h.pushedCount + 1
      firstIndex := if h.pushedCount = 0 then block.blockIndex else h.firstIndex
      length_ring := by rw [List.length_set, h.length_ring] }

/-- `oldestBlockIndex`. -/
def oldestBlockIndex (h : SplBlockRing) : Option ℕ :=
  if h.pushedCount = 0 then none
  else if h.pushedCount ≤ h.capacity then some h.firstIndex
  else some (h.firstIndex + h.pushedCount - h.capacity)

/-- `newestBlockIndex`. -/
def newestBlockIndex (h : SplBlockRing) : Option ℕ :=
  if h.pushedCount = 0 then none else some (h.firstIndex + h.pushedCount - 1)

/-- `at`. -/
def blockAt (h : SplBlockRing) (blockIndex : ℕ) : Option Block :=
  match h.oldestBlockIndex, h.newestBlockIndex with
  | some oldest, some newest =>
    if blockIndex < oldest ∨ blockIndex > newest then none
    else h.ring[(blockIndex - h.firstIndex) % h.capacity]?
  | _, _ => none

/-- Blocks pushed one after the other. -/
def pushAll (h : SplBlockRing) (blocks : List Block) : SplBlockRing := blocks.foldl push h

/-! ### What is found in the ring -/

/-- What the ring is after the blocks have been pushed. -/
structure Holds (capacity : ℕ) (blocks : List Block) (h : SplBlockRing) : Prop where
  capacity_eq : h.capacity = capacity
  pushedCount_eq : h.pushedCount = blocks.length
  firstIndex_eq : ∀ first, blocks.head? = some first → h.firstIndex = first.blockIndex
  /-- A block stays in its place until the ring comes round. -/
  ring_eq : ∀ k < blocks.length, blocks.length ≤ k + capacity →
    h.ring[k % capacity]? = blocks[k]?

variable {capacity : ℕ}

theorem Holds.make : Holds capacity [] (make capacity) :=
  ⟨rfl, rfl, fun _ h => (by cases h), fun _ hk => absurd hk (Nat.not_lt_zero _)⟩

/-- Places that are less than the capacity apart are different. -/
theorem mod_ne_mod {capacity k n : ℕ} (hlt : k < n) (hnear : n < k + capacity) :
    k % capacity ≠ n % capacity := by
  intro heq
  have hdvd := Nat.dvd_of_mod_eq_zero (Nat.sub_mod_eq_zero_of_mod_eq heq.symm)
  have := Nat.le_of_dvd (by omega) hdvd
  omega

variable {blocks : List Block} {h : SplBlockRing}

theorem Holds.push (hpos : 0 < capacity) (hh : Holds capacity blocks h) (block : Block) :
    Holds capacity (blocks ++ [block]) (h.push block) := by
  have hne : ¬ h.capacity = 0 := by rw [hh.capacity_eq]; exact hpos.ne'
  rw [SplBlockRing.push, if_neg hne]
  refine ⟨hh.capacity_eq, ?_, fun first hfirst => ?_, fun k hk hnear => ?_⟩
  · simp [hh.pushedCount_eq]
  · dsimp only
    rw [hh.pushedCount_eq]
    cases blocks with
    | nil =>
      obtain rfl := Option.some.inj hfirst
      rfl
    | cons b blocks =>
      obtain rfl := Option.some.inj hfirst
      exact hh.firstIndex_eq b rfl
  · rw [List.length_append, List.length_singleton] at hk hnear
    dsimp only
    rw [hh.capacity_eq, hh.pushedCount_eq]
    obtain rfl | hlt := (Nat.lt_succ_iff.mp hk).eq_or_lt
    · have hin : blocks.length % capacity < h.ring.length := by
        rw [h.length_ring, hh.capacity_eq]
        exact Nat.mod_lt _ hpos
      rw [List.getElem?_set_self hin, List.getElem?_concat_length]
    · rw [List.getElem?_set_ne (mod_ne_mod hlt (by omega)).symm, hh.ring_eq k hlt (by omega),
        List.getElem?_append_left hlt]

theorem Holds.pushAll (hpos : 0 < capacity) (blocks : List Block) :
    Holds capacity blocks ((SplBlockRing.make capacity).pushAll blocks) := by
  induction blocks using List.reverseRecOn with
  | nil => exact .make
  | append_singleton blocks block ih =>
    rw [SplBlockRing.pushAll, List.foldl_append]
    exact ih.push hpos block

/-- A ring without room stays as it is, and finds nothing. -/
theorem pushAll_zero (blocks : List Block) :
    (SplBlockRing.make 0).pushAll blocks = SplBlockRing.make 0 := by
  induction blocks using List.reverseRecOn with
  | nil => rfl
  | append_singleton blocks block ih =>
    rw [pushAll, List.foldl_append]
    exact (congrArg (fun h : SplBlockRing => h.push block) ih).trans (if_pos rfl)

/-- Index `i` is looked up among the pushes as if the indices were consecutive. -/
theorem Holds.blockAt_eq (hpos : 0 < capacity) (hh : Holds capacity blocks h) {first : Block}
    (hfirst : blocks.head? = some first) (i : ℕ) :
    h.blockAt i =
      if first.blockIndex ≤ i ∧ blocks.length ≤ i - first.blockIndex + capacity then
        blocks[i - first.blockIndex]?
      else none := by
  have hlength : 0 < blocks.length := by
    rcases blocks with _ | ⟨b, blocks⟩
    · cases hfirst
    · exact Nat.succ_pos _
  have hcount : h.pushedCount ≠ 0 := by rw [hh.pushedCount_eq]; exact hlength.ne'
  have hindex := hh.firstIndex_eq first hfirst
  have holdest : h.oldestBlockIndex = some (first.blockIndex + (blocks.length - capacity)) := by
    rw [oldestBlockIndex, if_neg hcount, hh.pushedCount_eq, hh.capacity_eq, hindex]
    split_ifs with hroom
    · rw [Nat.sub_eq_zero_of_le hroom, Nat.add_zero]
    · congr 1
      omega
  have hnewest : h.newestBlockIndex = some (first.blockIndex + blocks.length - 1) := by
    rw [newestBlockIndex, if_neg hcount, hh.pushedCount_eq, hindex]
  rw [blockAt, holdest, hnewest]
  dsimp only
  rw [hindex, hh.capacity_eq]
  by_cases hin : first.blockIndex ≤ i ∧ blocks.length ≤ i - first.blockIndex + capacity
  · rw [if_pos hin]
    by_cases hlt : i - first.blockIndex < blocks.length
    · rw [if_neg (by omega), hh.ring_eq _ hlt hin.2]
    · rw [if_pos (by omega), List.getElem?_eq_none (by omega)]
  · rw [if_neg hin, if_pos (by omega)]

end SplBlockRing

/-! ### Faithful histories -/

/-- What is looked up is the block of that index, and every block that is retained is found. -/
def Faithful (capacity : ℕ) (blocks : List Block) (h : SplBlockRing) : Prop :=
  (∀ i block, h.blockAt i = some block → block.blockIndex = i) ∧
    ∀ block ∈ blocks.drop (blocks.length - capacity), h.blockAt block.blockIndex = some block

/-- The blocks that are retained continue the numbering of the first block that was pushed. -/
def NumberedOn (capacity : ℕ) (blocks : List Block) : Prop :=
  ∀ first, blocks.head? = some first → ∀ k block, blocks[k]? = some block →
    blocks.length ≤ k + capacity → block.blockIndex = first.blockIndex + k

/-- **Headline.** A history of any blocks is faithful exactly when they are numbered on. -/
theorem faithful_iff (capacity : ℕ) (blocks : List Block) :
    Faithful capacity blocks ((SplBlockRing.make capacity).pushAll blocks) ↔
      NumberedOn capacity blocks := by
  obtain rfl | hpos := Nat.eq_zero_or_pos capacity
  · rw [SplBlockRing.pushAll_zero]
    refine iff_of_true ⟨fun i block h => (by cases h), fun block h => ?_⟩
      fun _ _ k block hk hle => ?_
    · rw [Nat.sub_zero, List.drop_length] at h
      exact absurd h List.not_mem_nil
    · have := (List.getElem?_eq_some_iff.mp hk).1
      omega
  · have hh := SplBlockRing.Holds.pushAll hpos blocks
    rcases hfirst : blocks.head? with _ | first
    · rw [List.head?_eq_none_iff.mp hfirst]
      refine iff_of_true ⟨fun i block h => (by cases h), fun block h => ?_⟩ fun _ h => (by cases h)
      rw [List.drop_nil] at h
      exact absurd h List.not_mem_nil
    · have hat := hh.blockAt_eq hpos hfirst
      constructor
      · rintro ⟨hfound, -⟩ first' hfirst' k block hk hle
        obtain rfl := Option.some.inj (hfirst.symm.trans hfirst')
        refine hfound _ block ?_
        rw [hat, Nat.add_sub_cancel_left, if_pos ⟨Nat.le_add_right _ _, hle⟩, hk]
      · intro hnumbered
        refine ⟨fun i block h => ?_, fun block h => ?_⟩
        · rw [hat] at h
          split_ifs at h with hin
          have hindex := hnumbered first hfirst _ block h hin.2
          omega
        · obtain ⟨j, hj⟩ := List.mem_iff_getElem?.mp h
          rw [List.getElem?_drop] at hj
          have hindex := hnumbered first hfirst _ block hj (by omega)
          have hback : block.blockIndex - first.blockIndex = blocks.length - capacity + j := by
            omega
          rw [hat, hback, if_pos (by omega), hj]

/-! ### The indices of a meter -/

namespace BlockAccumulator

theorem pushSamples_indices (math : MeterMath) (acc : BlockAccumulator) (xs : List (ℚ × ℚ)) :
    ∃ closed, (acc.pushSamples math xs).1.nextIndex = acc.nextIndex + closed ∧
      (acc.pushSamples math xs).1.ready.map Block.blockIndex =
        acc.ready.map Block.blockIndex ++ List.range' acc.nextIndex closed := by
  induction xs generalizing acc with
  | nil => exact ⟨0, rfl, (List.append_nil _).symm⟩
  | cons xp xs ih =>
    obtain ⟨x, p⟩ := xp
    rw [pushSamples]
    split_ifs with hfull
    · exact ⟨0, rfl, (List.append_nil _).symm⟩
    · obtain ⟨closed, hnext, hready⟩ := ih (acc.sample math x p)
      rw [sample] at hnext hready ⊢
      split_ifs at hnext hready ⊢ with hopen
      · exact ⟨closed, hnext, hready⟩
      · refine ⟨closed + 1, hnext.trans ?_, hready.trans ?_⟩
        · exact Nat.add_right_comm acc.nextIndex 1 closed
        · rw [closeBlock]
          dsimp only
          rw [List.map_append, List.append_assoc, List.range'_succ]
          rfl

@[simp] theorem noteDroppedSamples_nextIndex (acc : BlockAccumulator) (count : ℕ) :
    (acc.noteDroppedSamples count).nextIndex = acc.nextIndex := by
  rw [noteDroppedSamples]
  split_ifs <;> rfl

end BlockAccumulator

namespace SplMeter

variable {Filter : Type}

theorem drain_indices (m : SplMeter Filter) (blocks : List Block) :
    (drain m blocks).accumulator.nextIndex = m.accumulator.nextIndex ∧
      (drain m blocks).readyBuffer =
        m.readyBuffer ++ blocks.take (kScratchSamples - m.readyBuffer.length) := by
  induction blocks generalizing m with
  | nil => simp [drain]
  | cons block blocks ih =>
    rw [drain]
    split_ifs with hroom
    · obtain ⟨hnext, hbuffer⟩ := ih { m with readyBuffer := m.readyBuffer ++ [block] }
      refine ⟨hnext, hbuffer.trans ?_⟩
      dsimp only
      have hleft : kScratchSamples - m.readyBuffer.length =
          kScratchSamples - (m.readyBuffer ++ [block]).length + 1 := by
        rw [List.length_append, List.length_singleton]
        omega
      rw [hleft, List.take_succ_cons, List.append_assoc, List.singleton_append]
    · obtain ⟨hnext, hbuffer⟩ := ih { m with
        accumulator := (m.accumulator.setFlag droppedFlag).noteDroppedSamples
          ((block.blockSamples + block.droppedSamples) % 2 ^ 32) }
      refine ⟨hnext.trans ?_, hbuffer.trans ?_⟩
      · exact BlockAccumulator.noteDroppedSamples_nextIndex _ _
      · dsimp only
        rw [Nat.sub_eq_zero_of_le (not_lt.mp hroom), List.take_zero, List.take_zero]

/-- The indices that wait after some samples, those that found no room being gone. -/
structure IndicesAfter (m m' : SplMeter Filter) (samples : ℕ) : Prop where
  nextIndex : m'.accumulator.nextIndex = m.accumulator.nextIndex +
    blocksIn m.accumulator.blockSamples m.accumulator.pending samples
  readyBuffer : m'.readyBuffer.map Block.blockIndex = m.readyBuffer.map Block.blockIndex ++
    (List.range' m.accumulator.nextIndex
      (blocksIn m.accumulator.blockSamples m.accumulator.pending samples)).take
        (kScratchSamples - m.readyBuffer.length)

theorem pushSegment_indices [WeightingFilter Filter] {m : SplMeter Filter} (segment : List ℚ)
    (hready : m.accumulator.ready = [])
    (hroom : m.accumulator.pending + segment.length ≤ m.accumulator.blockSamples) :
    IndicesAfter m (m.pushSegment segment).1 segment.length := by
  rw [pushSegment]
  dsimp only
  have hlen : (weigh m.mainWeighting segment).2.length =
      (weigh m.peakWeighting segment).2.length := by rw [length_weigh, length_weigh]
  have hpush : ∀ acc : BlockAccumulator, acc.blockSamples = m.accumulator.blockSamples →
      acc.pending = m.accumulator.pending → acc.ready = [] →
      acc.nextIndex = m.accumulator.nextIndex →
      (acc.push (WeightingFilter.math Filter) (weigh m.mainWeighting segment).2
        (weigh m.peakWeighting segment).2).1.nextIndex = m.accumulator.nextIndex +
          blocksIn m.accumulator.blockSamples m.accumulator.pending segment.length ∧
      (acc.push (WeightingFilter.math Filter) (weigh m.mainWeighting segment).2
        (weigh m.peakWeighting segment).2).1.ready.map Block.blockIndex =
          List.range' m.accumulator.nextIndex
            (blocksIn m.accumulator.blockSamples m.accumulator.pending segment.length) := by
    intro acc hbs hp hr hn
    obtain ⟨-, -, -, hcount⟩ := acc.push_of_room (WeightingFilter.math Filter) hlen hr
      (by rw [length_weigh, hbs, hp]; exact hroom)
    rw [BlockAccumulator.push, if_neg (not_not.mpr hlen)] at hcount ⊢
    obtain ⟨closed, hnext, hindices⟩ := acc.pushSamples_indices (WeightingFilter.math Filter)
      ((weigh m.mainWeighting segment).2.zip (weigh m.peakWeighting segment).2)
    rw [hr, List.map_nil, List.nil_append] at hindices
    have hclosed : closed =
        blocksIn m.accumulator.blockSamples m.accumulator.pending segment.length := by
      have := congrArg List.length hindices
      rw [List.length_map, List.length_range', hcount, length_weigh, hbs, hp] at this
      exact this.symm
    rw [hnext, hindices, hclosed, hn]
    exact ⟨rfl, rfl⟩
  obtain ⟨hnext, hindices⟩ := hpush
    (if (overload m.overloadRun segment).2 then m.accumulator.setFlag overloadFlag
      else m.accumulator)
    (by split <;> rfl) (by split <;> rfl) (by split <;> exact hready) (by split <;> rfl)
  generalize (if (overload m.overloadRun segment).2 then m.accumulator.setFlag overloadFlag
    else m.accumulator) = acc at hnext hindices
  generalize acc.push (WeightingFilter.math Filter) (weigh m.mainWeighting segment).2
    (weigh m.peakWeighting segment).2 = pushed at hnext hindices
  obtain ⟨hn, hbuffer⟩ := drain_indices
    { (weigh m.mainWeighting segment).2.foldl lnSample m with
      mainWeighting := (weigh m.mainWeighting segment).1
      peakWeighting := (weigh m.peakWeighting segment).1
      accumulator := { pushed.1 with ready := [] }
      overloadRun := (overload m.overloadRun segment).1
      readyBuffer := m.readyBuffer } pushed.1.ready
  refine ⟨hn.trans hnext, ?_⟩
  rw [hbuffer, List.map_append, List.map_take, hindices]

theorem IndicesAfter.refl (m : SplMeter Filter) : IndicesAfter m m 0 := by
  have hnone : blocksIn m.accumulator.blockSamples m.accumulator.pending 0 = 0 :=
    Nat.div_eq_of_lt m.accumulator.pending_lt
  refine ⟨?_, ?_⟩
  · rw [hnone, Nat.add_zero]
  · rw [hnone, List.range'_zero, List.take_nil, List.append_nil]

theorem IndicesAfter.trans {m m' t : SplMeter Filter} {n k : ℕ} (h : IndicesAfter m m' n)
    (hclock : ClockAfter m m' n) (h' : IndicesAfter m' t k) : IndicesAfter m t (n + k) := by
  have hb : 0 < m.accumulator.blockSamples :=
    (Nat.zero_le _).trans_lt m.accumulator.pending_lt
  have hsum := blocksIn_add hb m.accumulator.pending n k
  rw [← hclock.pending, ← hclock.blockSamples] at hsum
  refine ⟨?_, ?_⟩
  · rw [h'.nextIndex, h.nextIndex, ← hclock.blockSamples, hsum, hclock.blockSamples, Nat.add_assoc]
  · have hroom : kScratchSamples - m'.readyBuffer.length = kScratchSamples - m.readyBuffer.length -
        blocksIn m.accumulator.blockSamples m.accumulator.pending n := by
      rw [hclock.readyBuffer]
      omega
    rw [hclock.blockSamples] at hsum
    rw [h'.readyBuffer, h.readyBuffer, List.append_assoc, hclock.blockSamples, hsum,
      ← List.range'_append_1, List.take_append, List.length_range', h.nextIndex, hroom]

theorem pushFrom_indices [WeightingFilter Filter] (fuel : ℕ) (m : SplMeter Filter) (hop : List ℚ)
    (hready : m.accumulator.ready = []) (hcap : m.readyBuffer.length ≤ kScratchSamples)
    (hfuel : hop.length ≤ fuel) : IndicesAfter m (pushFrom fuel m hop) hop.length := by
  refine pushFrom_induction (motive := fun m hop t => IndicesAfter m t hop.length)
    (fun m _ _ => .refl m) ?_ fuel m hop hready hcap hfuel
  intro m t segment rest hready hcap hroom hrest
  rw [List.length_append]
  exact (pushSegment_indices segment hready hroom).trans
    (pushSegment_clock segment hready hcap hroom).2 hrest

/-- **What a hop does to the indices.** The next ones go to the buffer, as long as it has room. -/
theorem push_indices [WeightingFilter Filter] {m : SplMeter Filter}
    (hready : m.accumulator.ready = []) (hcap : m.readyBuffer.length ≤ kScratchSamples)
    (hop : List ℚ) : IndicesAfter m (m.push hop) hop.length :=
  have h := pushFrom_indices hop.length { m with lnTicks := [] } hop hready hcap le_rfl
  ⟨h.nextIndex, h.readyBuffer⟩

end SplMeter

/-! ### A meter that is polled into a history -/

/-- A meter, the history its blocks are pushed into, and those blocks. -/
structure HistoryRun (Filter : Type) where
  meter : SplMeter Filter
  history : SplBlockRing
  polled : List Block

/-- The calls. `poll` is polling the meter and pushing what it gives. -/
inductive HistoryAct
  | push (hop : List ℚ)
  | noteDroppedSamples (count : ℕ)
  | setFlag (flag : UInt32)
  | reset
  | poll

namespace HistoryRun

variable {Filter : Type} [WeightingFilter Filter]

/-- A new meter and an empty history. -/
def start (config : SplConfig) (weighting : WeightingType) (sampleRate : ℚ) (capacity : ℕ) :
    HistoryRun Filter where
  meter := .make config weighting sampleRate
  history := .make capacity
  polled := []

/-- One call. After `reset` the meter is as it was made. -/
def next (config : SplConfig) (weighting : WeightingType) (sampleRate : ℚ) (s : HistoryRun Filter) :
    HistoryAct → HistoryRun Filter
  | .push hop => { s with meter := s.meter.push hop }
  | .noteDroppedSamples count => { s with meter := s.meter.noteDroppedSamples count }
  | .setFlag flag =>
    { s with meter := { s.meter with accumulator := s.meter.accumulator.setFlag flag } }
  | .reset => { s with meter := .make config weighting sampleRate }
  | .poll =>
    let r := s.meter.poll
    { meter := r.2
      history := s.history.pushAll r.1.toList
      polled := s.polled ++ r.1.toList }

/-- Nothing is given up, and the numbering does not start again. -/
def Keeps (s : HistoryRun Filter) (a : HistoryAct) (_ : HistoryRun Filter) : Prop :=
  match a with
  | .push hop => s.meter.readyBuffer.length + SplMeter.blocksIn s.meter.accumulator.blockSamples
      s.meter.accumulator.pending hop.length ≤ SplMeter.kScratchSamples
  | .reset => s.polled = []
  | _ => True

instance (s : HistoryRun Filter) (a : HistoryAct) (t : HistoryRun Filter) :
    Decidable (Keeps s a t) :=
  match a with
  | .push _ => inferInstanceAs (Decidable (_ ≤ _))
  | .noteDroppedSamples _ => isTrue trivial
  | .setFlag _ => isTrue trivial
  | .reset => decidable_of_iff (s.polled.isEmpty = true) List.isEmpty_iff
  | .poll => isTrue trivial

end HistoryRun

/-- Every sequence of calls on a new meter and an empty history. -/
def historyRuns (Filter : Type) [WeightingFilter Filter] (config : SplConfig)
    (weighting : WeightingType) (sampleRate : ℚ) (capacity : ℕ) :
    Machine (HistoryRun Filter) HistoryAct where
  init s := s = .start config weighting sampleRate capacity
  step s a := some (s.next config weighting sampleRate a)

namespace HistoryRun

variable {Filter : Type} [WeightingFilter Filter] {config : SplConfig} {weighting : WeightingType}
  {sampleRate : ℚ} {capacity : ℕ}

variable {s : HistoryRun Filter}

theorem history_eq (h : (historyRuns Filter config weighting sampleRate capacity).Reachable s) :
    s.history = (SplBlockRing.make capacity).pushAll s.polled := by
  refine h.invariant (fun s => s.history = (SplBlockRing.make capacity).pushAll s.polled) ?_ ?_
  · rintro s rfl
    rfl
  · intro s a t hs ht
    obtain rfl := Option.some.inj ht
    cases a with
    | push hop => exact hs
    | noteDroppedSamples count => exact hs
    | setFlag flag => exact hs
    | reset => exact hs
    | poll =>
      rw [next]
      dsimp only
      rw [hs, SplBlockRing.pushAll, SplBlockRing.pushAll, SplBlockRing.pushAll, List.foldl_append]

/-- What holds between the calls, as long as nothing is given up. -/
structure Inv (s : HistoryRun Filter) : Prop where
  ready : s.meter.accumulator.ready = []
  waiting : s.meter.readyBuffer.length ≤ SplMeter.kScratchSamples
  indices : s.polled.map Block.blockIndex ++ s.meter.readyBuffer.map Block.blockIndex =
    List.range s.meter.accumulator.nextIndex

theorem Inv.start : Inv (start config weighting sampleRate capacity : HistoryRun Filter) :=
  ⟨rfl, Nat.zero_le _, rfl⟩

/-- A hop whose blocks all find room. -/
theorem Inv.push (h : Inv s) {hop : List ℚ}
    (hroom : s.meter.readyBuffer.length + SplMeter.blocksIn s.meter.accumulator.blockSamples
      s.meter.accumulator.pending hop.length ≤ SplMeter.kScratchSamples) :
    Inv { s with meter := s.meter.push hop } := by
  have hclock := SplMeter.push_clock h.ready h.waiting hop
  have hindices := SplMeter.push_indices h.ready h.waiting hop
  refine ⟨hclock.ready, hclock.readyBuffer.trans_le (Nat.min_le_left _ _), ?_⟩
  rw [hindices.readyBuffer, hindices.nextIndex, List.take_of_length_le (by
    rw [List.length_range']; omega), ← List.append_assoc, h.indices, List.range_eq_range',
    List.range_eq_range', ← List.range'_append_1, Nat.zero_add]

/-- A block that is polled leaves the meter for the history. -/
theorem Inv.poll (h : Inv s) :
    Inv (s.next config weighting sampleRate .poll) := by
  rw [next]
  rcases s.meter.poll_cases with ⟨block, rest, hbuffer, hpoll⟩ | ⟨block, rest, -, hready, -⟩ |
    ⟨-, -, hpoll⟩
  · have hwaiting := h.waiting
    have hindices := h.indices
    rw [hbuffer] at hwaiting hindices
    rw [hpoll]
    refine ⟨h.ready, (Nat.le_succ _).trans hwaiting, ?_⟩
    rw [← hindices]
    simp
  · rw [h.ready] at hready
    cases hready
  · rw [hpoll]
    refine ⟨h.ready, h.waiting, ?_⟩
    rw [← h.indices]
    simp

/-- **One call.** A call that gives nothing up keeps the numbering. -/
theorem Inv.next (h : Inv s) {a : HistoryAct} {t : HistoryRun Filter}
    (hkeeps : Keeps s a t) : Inv (s.next config weighting sampleRate a) := by
  cases a with
  | push hop => exact h.push hkeeps
  | noteDroppedSamples count =>
    obtain ⟨-, -, hready⟩ := s.meter.accumulator.noteDroppedSamples_clock count
    refine ⟨hready.trans h.ready, h.waiting, h.indices.trans ?_⟩
    exact congrArg List.range (s.meter.accumulator.noteDroppedSamples_nextIndex count).symm
  | setFlag flag => exact ⟨h.ready, h.waiting, h.indices⟩
  | reset =>
    refine ⟨rfl, Nat.zero_le _, ?_⟩
    rw [HistoryRun.next, show s.polled = [] from hkeeps]
    rfl
  | poll => exact h.poll

/-- The blocks polled are the first ones, in order. -/
theorem Inv.numberedOn (h : Inv s) (capacity : ℕ) :
    NumberedOn capacity s.polled := by
  have hindex : ∀ k (block : Block), s.polled[k]? = some block → block.blockIndex = k := by
    intro k block hk
    have hlt := (List.getElem?_eq_some_iff.mp hk).1
    have hget := congrArg (·[k]?) h.indices
    rw [List.getElem?_append_left (by rwa [List.length_map]), List.getElem?_map, hk,
      Option.map_some] at hget
    obtain ⟨_, hrange⟩ := List.getElem?_eq_some_iff.mp hget.symm
    rw [List.getElem_range] at hrange
    exact hrange.symm
  intro first hfirst k block hk _
  rw [List.head?_eq_getElem?] at hfirst
  rw [hindex 0 first hfirst, hindex k block hk, Nat.zero_add]

end HistoryRun

/-- **Headline.** In every state a run of a meter that is polled into a history reaches, the history
is faithful exactly when the blocks it retains are numbered on; and in every run in which the blocks
of each hop find room and the meter is not reset once blocks have been polled, it always is. -/
theorem history_meets_iff (Filter : Type) [WeightingFilter Filter] (config : SplConfig)
    (weighting : WeightingType) (sampleRate : ℚ) (capacity : ℕ) :
    (∀ s, (historyRuns Filter config weighting sampleRate capacity).Reachable s →
      (Faithful capacity s.polled s.history ↔ NumberedOn capacity s.polled)) ∧
    ∀ acts, (historyRuns Filter config weighting sampleRate capacity).AlongSteps HistoryRun.Keeps
        (.start config weighting sampleRate capacity) acts →
      (historyRuns Filter config weighting sampleRate capacity).AlongSteps
        (fun _ _ t => Faithful capacity t.polled t.history)
        (.start config weighting sampleRate capacity) acts := by
  have hiff : ∀ s, (historyRuns Filter config weighting sampleRate capacity).Reachable s →
      (Faithful capacity s.polled s.history ↔ NumberedOn capacity s.polled) := by
    intro s hs
    rw [HistoryRun.history_eq hs]
    exact faithful_iff capacity s.polled
  refine ⟨hiff, fun acts hacts => ?_⟩
  refine Machine.AlongSteps.of_invariant
    (fun s => (historyRuns Filter config weighting sampleRate capacity).Reachable s ∧
      HistoryRun.Inv s) ?_ ⟨.init rfl, .start⟩ hacts
  rintro s a t ⟨hreach, hinv⟩ ht hkeeps
  have hreach' := hreach.step ht
  obtain rfl := Option.some.inj ht
  have hinv' : HistoryRun.Inv (s.next config weighting sampleRate a) := hinv.next hkeeps
  exact ⟨⟨hreach', hinv'⟩, (hiff _ hreach').mpr (hinv'.numberedOn capacity)⟩

/-- Blocks of a second. -/
def everySecond : SplConfig where
  blockSeconds := 1
  metrics := [{ id := bytes "Leq", weighting := .Z }]

/-- Two samples a second, a hop of three blocks and a half, and each block polled. -/
theorem history_meets_iff_polled :
    (Faithful 2 [] (SplBlockRing.make 2) ↔ NumberedOn 2 []) ∧
    (historyRuns Through everySecond .Z 2 2).AlongSteps
      (fun _ _ t => Faithful 2 t.polled t.history) (.start everySecond .Z 2 2)
      [.reset, .push [0, 1, 0, 1, 0, 1, 0], .poll, .poll, .poll, .push [1], .poll] :=
  ⟨(history_meets_iff Through everySecond .Z 2 2).1 _ (.init rfl),
    (history_meets_iff Through everySecond .Z 2 2).2 _ (by decide +kernel)⟩

/-! ### Blocks that are not polled -/

namespace HistoryRun

variable {Filter : Type} [WeightingFilter Filter] {config : SplConfig} {weighting : WeightingType}
  {sampleRate : ℚ} {capacity : ℕ}

theorem exec_pushes (s : HistoryRun Filter) (hop : List ℚ) (hready : s.meter.accumulator.ready = [])
    (hcap : s.meter.readyBuffer.length ≤ SplMeter.kScratchSamples) (n : ℕ) :
    ∃ m, (historyRuns Filter config weighting sampleRate capacity).exec s
        (List.replicate n (.push hop)) = some { s with meter := m } ∧
      SplMeter.ClockAfter s.meter m (n * hop.length) ∧
      SplMeter.IndicesAfter s.meter m (n * hop.length) := by
  induction n with
  | zero =>
    rw [Nat.zero_mul]
    exact ⟨s.meter, rfl, .refl hready hcap, .refl s.meter⟩
  | succ n ih =>
    obtain ⟨m, hexec, hclock, hindices⟩ := ih
    have hcap' := hclock.readyBuffer.trans_le (Nat.min_le_left _ _)
    refine ⟨m.push hop, ?_, ?_, ?_⟩
    · rw [List.replicate_succ', Machine.exec_append, hexec]
      rfl
    · rw [Nat.succ_mul]
      exact hclock.trans (SplMeter.push_clock hclock.ready hcap' hop)
    · rw [Nat.succ_mul]
      exact hindices.trans hclock (SplMeter.push_indices hclock.ready hcap' hop)

theorem exec_polls (s : HistoryRun Filter) :
    ∃ h, (historyRuns Filter config weighting sampleRate capacity).exec s
        (List.replicate s.meter.readyBuffer.length .poll) =
      some { meter := { s.meter with readyBuffer := [] }, history := h,
             polled := s.polled ++ s.meter.readyBuffer } := by
  obtain ⟨meter, history, polled⟩ := s
  dsimp only
  generalize hbuffer : meter.readyBuffer = buffer
  induction buffer generalizing meter history polled with
  | nil =>
    refine ⟨history, ?_⟩
    rw [List.append_nil]
    refine congrArg (fun m => some (HistoryRun.mk m history polled)) ?_
    rw [← hbuffer]
  | cons block rest ih =>
    obtain ⟨h, hexec⟩ := ih { meter with readyBuffer := rest } (history.push block)
      (polled ++ [block]) rfl
    refine ⟨h, ?_⟩
    have hnext : HistoryRun.next config weighting sampleRate ⟨meter, history, polled⟩ .poll =
        ⟨{ meter with readyBuffer := rest }, history.push block, polled ++ [block]⟩ := by
      rw [next, SplMeter.poll.eq_def]
      dsimp only
      rw [hbuffer]
      rfl
    rw [List.length_cons, List.replicate_succ, Machine.exec_cons,
      show (historyRuns Filter config weighting sampleRate capacity).step
          ⟨meter, history, polled⟩ .poll = some _ from rfl, Option.bind_some, hnext, hexec,
      List.append_assoc, List.singleton_append]

theorem exec_push_poll (s : HistoryRun Filter) (hop : List ℚ) {block : Block}
    (hblock : (s.meter.push hop).readyBuffer = [block]) :
    (historyRuns Filter config weighting sampleRate capacity).exec s [.push hop, .poll] =
      some { meter := { s.meter.push hop with readyBuffer := [] }
             history := s.history.push block
             polled := s.polled ++ [block] } := by
  rw [Machine.exec_cons,
    show (historyRuns Filter config weighting sampleRate capacity).step s (.push hop) =
      some { s with meter := s.meter.push hop } from rfl, Option.bind_some, Machine.exec_cons,
    show (historyRuns Filter config weighting sampleRate capacity).step
      { s with meter := s.meter.push hop } .poll = some _ from rfl, Option.bind_some,
    Machine.exec_nil, next, SplMeter.poll.eq_def]
  dsimp only
  rw [hblock]
  rfl

/-- Hops of one block each, without a poll until there are more than the buffer holds. When it has
been polled empty, the next block is not the next index. -/
theorem exec_unpolled (hop : List ℚ)
    (hhop : hop.length = max 1 (SplMeter.blockSamplesFor config.blockSeconds sampleRate)) {n : ℕ}
    (hn : 1024 ≤ n) :
    ∃ s, (historyRuns Filter config weighting sampleRate capacity).exec
        (.start config weighting sampleRate capacity)
        (List.replicate n (.push hop) ++ List.replicate 1024 .poll ++ [.push hop, .poll]) = some s ∧
      s.polled.map Block.blockIndex = List.range 1024 ++ [n] := by
  have hpos : 0 < hop.length := by omega
  have hclosed : SplMeter.blocksIn hop.length 0 (n * hop.length) = n := by
    rw [SplMeter.blocksIn, Nat.zero_add, Nat.mul_div_cancel _ hpos]
  have hblock : (start config weighting sampleRate capacity :
      HistoryRun Filter).meter.accumulator.blockSamples = hop.length := hhop.symm
  have hpending : (start config weighting sampleRate capacity :
      HistoryRun Filter).meter.accumulator.pending = 0 := rfl
  have hfresh : (start config weighting sampleRate capacity :
      HistoryRun Filter).meter.readyBuffer = [] := rfl
  have hfirst : (start config weighting sampleRate capacity :
      HistoryRun Filter).meter.accumulator.nextIndex = 0 := rfl
  obtain ⟨m, hpushes, hclock, hindices⟩ := @exec_pushes _ _ config weighting sampleRate capacity
    (start config weighting sampleRate capacity : HistoryRun Filter) hop rfl (Nat.zero_le _) n
  have hwaiting := hindices.readyBuffer
  have hnext := hindices.nextIndex
  have hphase := hclock.pending
  have hsize := hclock.blockSamples
  rw [hblock, hpending, hclosed, hfirst] at hnext
  rw [hblock, hpending, hclosed, hfirst, hfresh, List.map_nil, List.nil_append, List.length_nil,
    Nat.sub_zero, SplMeter.kScratchSamples, ← List.range_eq_range', List.take_range,
    Nat.min_eq_left hn] at hwaiting
  rw [hblock, hpending, Nat.zero_add, Nat.mul_mod_left] at hphase
  rw [hblock] at hsize
  have hcount : m.readyBuffer.length = 1024 := by
    rw [← List.length_map, hwaiting, List.length_range]
  obtain ⟨h, hpolls⟩ := @exec_polls _ _ config weighting sampleRate capacity
    { (start config weighting sampleRate capacity : HistoryRun Filter) with meter := m }
  dsimp only at hpolls
  rw [hcount] at hpolls
  have hlast := (SplMeter.push_indices (m := { m with readyBuffer := [] }) hclock.ready
    (Nat.zero_le _) hop).readyBuffer
  dsimp only at hlast
  rw [hsize, hphase, hnext, SplMeter.blocksIn, Nat.zero_add, Nat.zero_add, Nat.div_self hpos,
    List.range'_one, List.map_nil, List.nil_append, List.length_nil, Nat.sub_zero,
    List.take_of_length_le (by rw [List.length_singleton]; decide)] at hlast
  obtain ⟨block, hone, hindex⟩ := List.map_eq_singleton_iff.mp hlast
  refine ⟨{ meter := { SplMeter.push { m with readyBuffer := [] } hop with readyBuffer := [] }
            history := h.push block
            polled := [] ++ m.readyBuffer ++ [block] }, ?_, ?_⟩
  · rw [Machine.exec_append, Machine.exec_append, hpushes, Option.bind_some, hpolls,
      Option.bind_some]
    exact exec_push_poll ⟨{ m with readyBuffer := [] }, h, [] ++ m.readyBuffer⟩ hop hone
  · simp only [List.map_append, List.nil_append, hwaiting, List.map_singleton, hindex]

end HistoryRun

/-- A second of silence. -/
def silentSecond : List ℚ := List.replicate 48000 0

/-- 1025 seconds without a poll, as many polls as there are blocks, and one more second that is
polled. -/
def unpolledActs : List HistoryAct :=
  List.replicate 1025 (.push silentSecond) ++ List.replicate 1024 .poll ++
    [.push silentSecond, .poll]

/-- Index 1024 is that of the block that found no room. What is found under it has index 1025. -/
theorem history_staleBlock :
    ∃ s, ∃ block : Block, (historyRuns Through everySecond .Z 48000 3600).exec
        (.start everySecond .Z 48000 3600) unpolledActs = some s ∧
      s.history.blockAt 1024 = some block ∧ block.blockIndex = 1025 ∧
      ¬ Faithful 3600 s.polled s.history := by
  obtain ⟨s, hexec, hindices⟩ := @HistoryRun.exec_unpolled Through _ everySecond .Z 48000 3600
    silentSecond (List.length_replicate.trans (by decide +kernel)) 1025 (by decide)
  have hlength : s.polled.length = 1025 := by
    rw [← List.length_map, hindices, List.length_append, List.length_range]
    rfl
  have hfind : ∀ k i : ℕ, (List.range 1024 ++ [1025])[k]? = some i →
      ∃ block : Block, s.polled[k]? = some block ∧ block.blockIndex = i := by
    intro k i hi
    rw [← hindices, List.getElem?_map] at hi
    exact Option.map_eq_some_iff.mp hi
  obtain ⟨first, hfirst, hzero⟩ := hfind 0 0 (by decide +kernel)
  obtain ⟨block, hblock, hindex⟩ := hfind 1024 1025 (by decide +kernel)
  rw [← List.head?_eq_getElem?] at hfirst
  have hat : s.history.blockAt 1024 = some block := by
    rw [HistoryRun.history_eq (Machine.Reachable.exec (.init rfl) hexec),
      (SplBlockRing.Holds.pushAll (by decide) s.polled).blockAt_eq (by decide) hfirst, hzero,
      hlength, if_pos (by decide)]
    exact hblock
  refine ⟨s, block, hexec, hat, hindex, fun hfaithful => ?_⟩
  have := hfaithful.1 1024 block hat
  omega

end RtaTool
