import Mathlib.Data.List.Nodup
import RtaTool.Measure.SplAlarm

/-!
# Logging one channel

`SplSession` and `AnalysisThread::feedSpl`, for one logged channel: a chain for every weighting the
metrics name, each with its meter and a bounded window of its closed blocks, and the channel's
alarms, evaluated once for every block the hop closed.

A vector that has been reserved once is a list with a fixed capacity. Channels share nothing, so
one is modelled; the freeze after a device change, the percentile ticks, the log writer and the
counters the message thread reads are left out.

## Main definitions

* `Chain`, `SplSession`, `SplSession.start`, `SplSession.feedHop`
* `windowCapacityOf` -- how many blocks a chain's window holds
* `SplChannel.feedSpl`

## Main results

* `ChainInv.feedHop` -- a chain's window is the end of all it has closed, and its clock goes on
* `weightingsOf_nodup`, `mem_weightingsOf` -- the chains a session has
* `SessionInv.noteDropCount`, `SessionInv.feedHop` -- the chains of a session go on in lockstep
-/

namespace RtaTool

variable {Filter : Type}

/-- `SplSession::Chain`. -/
structure Chain (Filter : Type) where
  weighting : WeightingType
  meter : SplMeter Filter
  window : List Block
  windowCapacity : ℕ
  blocks : ℕ
  newlyClosed : List Block

/-- One turn of `feedHop`'s loop over the chains: the blocks this hop closed replace the last
hop's, and go into the window. -/
def Chain.feedHop [WeightingFilter Filter] (c : Chain Filter) (hop : List ℚ) : Chain Filter :=
  let polled := (c.meter.push hop).pollAll
  { weighting := c.weighting
    meter := polled.2
    window := polled.1.foldl (pushWindow c.windowCapacity) c.window
    windowCapacity := c.windowCapacity
    blocks := c.blocks + polled.1.length
    newlyClosed := polled.1 }

/-- Appends a weighting that is not there yet. -/
def addWeighting (ws : List WeightingType) (w : WeightingType) : List WeightingType :=
  if w ∈ ws then ws else ws ++ [w]

/-- The weightings of the metrics, each once, in first-seen order. -/
def namedWeightings (metrics : List SplMetricSpec) : List WeightingType :=
  metrics.foldl (fun ws m => addWeighting ws m.weighting) []

/-- The weightings a session has chains for: `Z` if no metric names one, and always `A`. -/
def weightingsOf (config : SplConfig) : List WeightingType :=
  let named := namedWeightings config.metrics
  addWeighting (if named = [] then [.Z] else named) .A

/-- `kMaxWindowBlocks`. -/
def kMaxWindowBlocks : ℕ := 3600

/-- The window capacity of every chain: the longest metric's own span, bounded. -/
def windowCapacityOf (config : SplConfig) : ℕ :=
  min (config.metrics.foldl (fun longest m => max longest m.windowBlocks) 1) kMaxWindowBlocks

/-- The metrics a session accepts. -/
def SplConfig.truncated (config : SplConfig) : SplConfig :=
  if config.refusedMetricCount ≠ 0 then
    { config with metrics := config.metrics.take SplConfig.kMaxMetrics }
  else config

/-- `SplSession`, with one logged channel. -/
structure SplSession (Filter : Type) where
  weightings : List WeightingType
  chains : List (Chain Filter)
  lastBusDropCount : ℕ
  dropBaselineSet : Bool

namespace SplSession

/-- `start(config, sampleRate, channels)`. -/
def start [WeightingFilter Filter] (config : SplConfig) (sampleRate : ℚ) : SplSession Filter where
  weightings := weightingsOf config.truncated
  chains := (weightingsOf config.truncated).map fun w =>
    { weighting := w
      meter := .make config.truncated w sampleRate
      window := []
      windowCapacity := windowCapacityOf config.truncated
      blocks := 0
      newlyClosed := [] }
  lastBusDropCount := 0
  dropBaselineSet := false

/-- `noteDropCount(channel, busDropCount)`: the first call is the baseline; afterwards the increase
rides the block being filled, on every chain. -/
def noteDropCount (s : SplSession Filter) (busDropCount : ℕ) : SplSession Filter :=
  if !s.dropBaselineSet then { s with lastBusDropCount := busDropCount, dropBaselineSet := true }
  else if busDropCount ≤ s.lastBusDropCount then s
  else
    { s with
      lastBusDropCount := busDropCount
      chains := s.chains.map fun c =>
        { c with
          meter := c.meter.noteDroppedSamples
            (min (busDropCount - s.lastBusDropCount) 0xFFFFFFFF) } }

/-- `feedHop(channel, hop)`. -/
def feedHop [WeightingFilter Filter] (s : SplSession Filter) (hop : List ℚ) : SplSession Filter :=
  { s with chains := s.chains.map (·.feedHop hop) }

/-- `chain(channel, weighting)`. -/
def chain (s : SplSession Filter) (w : WeightingType) : Option (Chain Filter) :=
  s.chains.find? (·.weighting = w)

/-- `newlyClosedBlocks(channel, weighting)`. -/
def newlyClosedBlocks (s : SplSession Filter) (w : WeightingType) : List Block :=
  ((s.chain w).map (·.newlyClosed)).getD []

/-- `window(channel, weighting)`. -/
def window (s : SplSession Filter) (w : WeightingType) : List Block :=
  ((s.chain w).map (·.window)).getD []

end SplSession

instance : Inhabited Block := ⟨⟨0, 0, 0, 0, kLevelFloorDb, kLevelFloorDb, kLevelFloorDb, 0⟩⟩

/-- What the analysis thread keeps of a logged channel. -/
structure SplChannel (Filter : Type) where
  session : SplSession Filter
  state : SplChannelState

namespace SplChannel

/-- `applyPendingSplRequest`, enabling one channel. The channel state reads the configuration as it
was requested. -/
def start [WeightingFilter Filter] (config : SplConfig) (sampleRate : ℚ) : SplChannel Filter where
  session := .start config sampleRate
  state := .make config sampleRate

/-- The weightings `feedSpl` looks at: at most three. -/
def fedWeightings (session : SplSession Filter) : List WeightingType := session.weightings.take 3

/-- `closedCount`: every chain closes in lockstep, and the last one's count is used. -/
def closedCount (session : SplSession Filter) : ℕ :=
  ((fedWeightings session).getLast?.map fun w => (session.newlyClosedBlocks w).length).getD 0

/-- What the `i`-th close of a hop hands to `onBlockClosed`. -/
def atClose (session : SplSession Filter) (i : ℕ) : List ChainBlockAtClose :=
  (fedWeightings session).map fun w =>
    { weighting := w
      block := (session.newlyClosedBlocks w).getD i default
      windowThroughThisBlock :=
        windowAtClose (session.newlyClosedBlocks w) (session.window w) i }

/-- The loop over the blocks a hop closed. -/
def closeAll (db : Decibels) (session : SplSession Filter) (st : SplChannelState) :
    ℕ → SplChannelState
  | 0 => st
  | n + 1 => (closeAll db session st n).onBlockClosed db (atClose session n)

/-- `feedSpl(channel)` for one hop, with the bus's drop count read before it. -/
def feedSpl [WeightingFilter Filter] (db : Decibels) (s : SplChannel Filter) (busDropCount : ℕ)
    (hop : List ℚ) : SplChannel Filter :=
  let session := (s.session.noteDropCount busDropCount).feedHop hop
  { session := session
    state := closeAll db session s.state (closedCount session) }

end SplChannel

/-! ### The chains of a session -/

variable {ws : List WeightingType} {c : Chain Filter}

theorem mem_addWeighting {w v : WeightingType} :
    v ∈ addWeighting ws w ↔ v ∈ ws ∨ v = w := by
  rw [addWeighting]
  split
  · rename_i h
    exact ⟨.inl, fun hv => hv.elim id fun heq => heq ▸ h⟩
  · rw [List.mem_append, List.mem_singleton]

theorem addWeighting_nodup (h : ws.Nodup) (w : WeightingType) :
    (addWeighting ws w).Nodup := by
  rw [addWeighting]
  split
  · exact h
  · rename_i hnot
    exact List.nodup_append_comm.mp (List.nodup_cons.mpr ⟨hnot, h⟩)

variable {closed : List Block} {m : SplMetricSpec}

theorem mem_namedWeightings {metrics : List SplMetricSpec} (hm : m ∈ metrics) :
    m.weighting ∈ namedWeightings metrics := by
  have hfold : ∀ (metrics : List SplMetricSpec) (ws : List WeightingType) (w : WeightingType),
      (w ∈ ws ∨ ∃ m ∈ metrics, m.weighting = w) →
        w ∈ metrics.foldl (fun ws m => addWeighting ws m.weighting) ws := by
    intro metrics
    induction metrics with
    | nil =>
      rintro ws w (h | ⟨m, hm, -⟩)
      · exact h
      · cases hm
    | cons m metrics ih =>
      rintro ws w h
      refine ih _ w ?_
      rcases h with h | ⟨m', hm', rfl⟩
      · exact .inl (mem_addWeighting.mpr (.inl h))
      · rcases List.mem_cons.mp hm' with rfl | hrest
        · exact .inl (mem_addWeighting.mpr (.inr rfl))
        · exact .inr ⟨m', hrest, rfl⟩
  exact hfold metrics [] _ (.inr ⟨m, hm, rfl⟩)

theorem namedWeightings_nodup (metrics : List SplMetricSpec) :
    (namedWeightings metrics).Nodup := by
  have hfold : ∀ (metrics : List SplMetricSpec) (ws : List WeightingType), ws.Nodup →
      (metrics.foldl (fun ws m => addWeighting ws m.weighting) ws).Nodup := by
    intro metrics
    induction metrics with
    | nil => exact fun ws h => h
    | cons m metrics ih => exact fun ws h => ih _ (addWeighting_nodup h _)
  exact hfold metrics [] List.nodup_nil

theorem weightingsOf_nodup (config : SplConfig) : (weightingsOf config).Nodup := by
  refine addWeighting_nodup ?_ _
  split
  · exact List.nodup_singleton _
  · exact namedWeightings_nodup _

theorem mem_weightingsOf {config : SplConfig} (hm : m ∈ config.metrics) :
    m.weighting ∈ weightingsOf config := by
  have hnamed := mem_namedWeightings hm
  rw [weightingsOf, if_neg (List.ne_nil_of_mem hnamed)]
  exact mem_addWeighting.mpr (.inl hnamed)

theorem length_le_three (h : ws.Nodup) : ws.length ≤ 3 := by
  have hsub : ws ⊆ [.A, .C, .Z] := by
    intro w _
    cases w <;> decide
  exact (List.subperm_of_subset h hsub).length_le

theorem windowCapacityOf_pos (config : SplConfig) : 0 < windowCapacityOf config := by
  have hfold : ∀ (metrics : List SplMetricSpec) (longest : ℕ), 0 < longest →
      0 < metrics.foldl (fun longest m => max longest m.windowBlocks) longest := by
    intro metrics
    induction metrics with
    | nil => exact fun _ h => h
    | cons m metrics ih => exact fun longest h => ih _ (h.trans_le (Nat.le_max_left _ _))
  exact lt_min (hfold _ 1 one_pos) (by decide)

/-! ### One chain -/

/-- A chain that has closed `closed` so far: its window is the end of that, and its meter has
nothing waiting and shows the given clock. -/
structure ChainInv (blockSamples pending : ℕ) (closed : List Block) (c : Chain Filter) : Prop where
  capacity_pos : 0 < c.windowCapacity
  window : c.window = closed.rtake c.windowCapacity
  ready : c.meter.accumulator.ready = []
  readyBuffer : c.meter.readyBuffer = []
  blockSamples_eq : c.meter.accumulator.blockSamples = blockSamples
  pending_eq : c.meter.accumulator.pending = pending

/-- How many blocks a hop closes on a chain with a given clock. -/
def closesIn (blockSamples pending samples : ℕ) : ℕ :=
  min SplMeter.kScratchSamples (SplMeter.blocksIn blockSamples pending samples)

theorem ChainInv.feedHop [WeightingFilter Filter] {b p : ℕ} (h : ChainInv b p closed c)
    (hop : List ℚ) :
    (c.feedHop hop).newlyClosed.length = closesIn b p hop.length ∧
      ChainInv b ((p + hop.length) % b) (closed ++ (c.feedHop hop).newlyClosed)
        (c.feedHop hop) := by
  have hclock := SplMeter.push_clock h.ready (by rw [h.readyBuffer]; exact Nat.zero_le _) hop
  have hnew : (c.feedHop hop).newlyClosed = (c.meter.push hop).readyBuffer := by
    show (c.meter.push hop).readyBuffer ++ (c.meter.push hop).accumulator.ready = _
    rw [hclock.ready, List.append_nil]
  constructor
  · rw [hnew, hclock.readyBuffer, h.readyBuffer, h.blockSamples_eq, h.pending_eq, List.length_nil,
      Nat.zero_add]
    rfl
  · refine ⟨h.capacity_pos, ?_, rfl, rfl, hclock.blockSamples.trans h.blockSamples_eq, ?_⟩
    · show (c.feedHop hop).newlyClosed.foldl (pushWindow c.windowCapacity) c.window = _
      rw [h.window]
      exact foldl_pushWindow h.capacity_pos _ _
    · exact hclock.pending.trans (by rw [h.pending_eq, h.blockSamples_eq])

theorem ChainInv.noteDroppedSamples {b p : ℕ} (h : ChainInv b p closed c) (count : ℕ) :
    ChainInv b p closed { c with meter := c.meter.noteDroppedSamples count } := by
  obtain ⟨h1, h2, h3⟩ := c.meter.accumulator.noteDroppedSamples_clock count
  exact ⟨h.capacity_pos, h.window, h3.trans h.ready, h.readyBuffer, h1.trans h.blockSamples_eq,
    h2.trans h.pending_eq⟩

/-! ### The session -/

theorem chain_eq {session : SplSession Filter} (hnodup : (session.chains.map (·.weighting)).Nodup)
    (hc : c ∈ session.chains) : session.chain c.weighting = some c := by
  have hsome : (session.chains.find? (·.weighting = c.weighting)).isSome :=
    List.find?_isSome.mpr ⟨c, hc, by simp⟩
  obtain ⟨d, hd⟩ := Option.isSome_iff_exists.mp hsome
  have hw : d.weighting = c.weighting := by simpa using List.find?_some hd
  have hdc := List.inj_on_of_nodup_map hnodup (List.mem_of_find?_eq_some hd) hc hw
  rw [SplSession.chain, hd, hdc]

/-- The session has its chains in order, all with one clock and one capacity, each window the end
of what its chain has closed. -/
structure SessionInv (config : SplConfig) (b p : ℕ) (closed : WeightingType → List Block)
    (session : SplSession Filter) : Prop where
  weightings : session.weightings = weightingsOf config
  chains : session.chains.map (·.weighting) = weightingsOf config
  clock : ∀ c ∈ session.chains,
    ChainInv b p (closed c.weighting) c ∧ c.windowCapacity = windowCapacityOf config

section

variable {config : SplConfig} {b p : ℕ} {closed : WeightingType → List Block}
  {session : SplSession Filter}

section

variable (h : SessionInv config b p closed session)

include h

theorem SessionInv.exists_chain {w : WeightingType} (hw : w ∈ weightingsOf config) :
    ∃ c ∈ session.chains, c.weighting = w ∧ session.chain w = some c := by
  have hnodup := weightingsOf_nodup config
  rw [← h.chains] at hw hnodup
  obtain ⟨c, hc, rfl⟩ := List.mem_map.mp hw
  exact ⟨c, hc, rfl, chain_eq hnodup hc⟩

omit h in
theorem SessionInv.start [WeightingFilter Filter] (config : SplConfig) (sampleRate : ℚ) :
    SessionInv config.truncated
      (BlockAccumulator.make (WeightingFilter.math Filter)
        (SplMeter.blockSamplesFor config.truncated.blockSeconds sampleRate)
        sampleRate).blockSamples
      0 (fun _ => []) (SplSession.start config sampleRate : SplSession Filter) := by
  refine ⟨rfl, by simp [SplSession.start, Function.comp_def], fun c hc => ?_⟩
  obtain ⟨w, -, rfl⟩ := List.mem_map.mp hc
  exact ⟨⟨windowCapacityOf_pos _, (List.rtake_nil _).symm, rfl, rfl, rfl, rfl⟩, rfl⟩

omit h in
theorem SessionInv.start_of_valid [WeightingFilter Filter] (sampleRate : ℚ)
    (hvalid : config.refusedMetricCount = 0) :
    SessionInv config
      (BlockAccumulator.make (WeightingFilter.math Filter)
        (SplMeter.blockSamplesFor config.blockSeconds sampleRate) sampleRate).blockSamples
      0 (fun _ => []) (SplSession.start config sampleRate : SplSession Filter) := by
  have htrunc : config.truncated = config := by
    rw [SplConfig.truncated, if_neg (not_not.mpr hvalid)]
  have h : SessionInv config.truncated _ 0 _ (SplSession.start config sampleRate : SplSession Filter) :=
    SessionInv.start config sampleRate
  rwa [htrunc] at h

theorem SessionInv.noteDropCount (busDropCount : ℕ) :
    SessionInv config b p closed (session.noteDropCount busDropCount) := by
  rw [SplSession.noteDropCount]
  split
  · exact ⟨h.weightings, h.chains, h.clock⟩
  · split
    · exact h
    · refine ⟨h.weightings, ?_, fun c hc => ?_⟩
      · rw [← h.chains, List.map_map]
        rfl
      · obtain ⟨c', hc', rfl⟩ := List.mem_map.mp hc
        exact ⟨(h.clock c' hc').1.noteDroppedSamples _, (h.clock c' hc').2⟩

theorem SessionInv.newlyClosedBlocks_feedHop [WeightingFilter Filter] {hop : List ℚ}
    {c : Chain Filter}
    (hc : c ∈ session.chains) :
    (session.feedHop hop).newlyClosedBlocks c.weighting = (c.feedHop hop).newlyClosed := by
  have hchains : (session.feedHop hop).chains.map (·.weighting) = weightingsOf config := by
    rw [SplSession.feedHop, List.map_map]
    exact h.chains
  have hmem : c.feedHop hop ∈ (session.feedHop hop).chains := List.mem_map_of_mem hc
  have hfound := chain_eq (hchains ▸ weightingsOf_nodup config) hmem
  have hw : (c.feedHop hop).weighting = c.weighting := rfl
  rw [hw] at hfound
  rw [SplSession.newlyClosedBlocks, hfound]
  rfl

/-- A hop closes the same number of blocks on every chain, and the invariant holds with them
appended. -/
theorem SessionInv.feedHop [WeightingFilter Filter] (hop : List ℚ) :
    (∀ w ∈ weightingsOf config,
        ((session.feedHop hop).newlyClosedBlocks w).length = closesIn b p hop.length) ∧
      SessionInv config b ((p + hop.length) % b)
        (fun w => closed w ++ (session.feedHop hop).newlyClosedBlocks w)
        (session.feedHop hop) := by
  have hchains : (session.feedHop hop).chains.map (·.weighting) = weightingsOf config := by
    rw [SplSession.feedHop, List.map_map]
    exact h.chains
  constructor
  · intro w hw
    obtain ⟨c, hc, rfl, -⟩ := h.exists_chain hw
    rw [h.newlyClosedBlocks_feedHop hc]
    exact ((h.clock c hc).1.feedHop hop).1
  · refine ⟨h.weightings, hchains, fun c' hc' => ?_⟩
    obtain ⟨c, hc, rfl⟩ := List.mem_map.mp hc'
    have hfed := ((h.clock c hc).1.feedHop hop).2
    rw [← h.newlyClosedBlocks_feedHop hc] at hfed
    exact ⟨hfed, (h.clock c hc).2⟩

end

end

end RtaTool
