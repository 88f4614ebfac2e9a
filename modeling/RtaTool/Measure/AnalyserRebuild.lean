import RtaTool.Measure.AverageGroup

/-!
# Rebuilding the analysers, one at a time

A device change or an applied delay invalidates every `Analyser`. Building them all at once would
stall the analysis thread, so it builds one per tick, and between the first and the last some slots
hold an analyser of the configuration before. `AnalyserRebuild` knows which: a slot at or beyond
`next` is stale, and is neither fed nor published.

An analyser's engines are a function of the configuration it was built from and of the calls made
to it since, so that is what an `Analyser` is here. `sweep` is bookkeeping: how often a rebuild had
begun when it was built.

## Main definitions

* `AnalyserConfig`, `Analyser`
* `AnalyserRebuild`, with `start`, `begin` and `step`
* `buildPublishedSnapshot`, as the slots it reads

## Main results

* `snapshotReads_lt` -- a snapshot reads no slot the publish gate did not ask about
-/

namespace RtaTool

/-- `Analyser::Config`: the two fields the thread changes and the settings it never does. -/
structure AnalyserConfig (Settings : Type) where
  sampleRate : ℚ := 48000
  referenceDelaySamples : ℤ := 0
  settings : Settings
  deriving DecidableEq, Repr

/-- What an `Analyser` is asked to do. -/
inductive AnalyserCall (Hop : Type)
  | pushPair (reference measurement : Hop)
  | pushMeasurement (samples : Hop)
  | pushReference (samples : Hop)
  | publish
  | transferSnapshotForAverage
  deriving DecidableEq, Repr

/-- An `Analyser`. -/
structure Analyser (Settings Hop : Type) where
  config : AnalyserConfig Settings
  sweep : ℕ
  calls : List (AnalyserCall Hop) := []
  deriving DecidableEq, Repr

variable {Settings Hop : Type}

/-- An analyser after one more call. -/
def Analyser.call (a : Analyser Settings Hop) (c : AnalyserCall Hop) : Analyser Settings Hop :=
  { a with calls := a.calls ++ [c] }

/-! ### Which slots are stale -/

/-- `AnalyserRebuild`. -/
structure AnalyserRebuild (Settings : Type) where
  slots : ℕ
  next : ℕ
  config : AnalyserConfig Settings
  deriving DecidableEq, Repr

/-- What `make` may throw. -/
inductive BuildError
  | badAlloc
  | other (what : String)
  deriving DecidableEq, Repr

namespace AnalyserRebuild

/-- The constructor: fully fresh. -/
def start [Inhabited Settings] (slots : ℕ) : AnalyserRebuild Settings :=
  ⟨slots, slots, { settings := default }⟩

/-- `begin(config)`: every slot is stale. -/
def begin (r : AnalyserRebuild Settings) (config : AnalyserConfig Settings) :
    AnalyserRebuild Settings :=
  { r with config := config, next := 0 }

/-- `pending()`. -/
def pending (r : AnalyserRebuild Settings) : Bool := r.next < r.slots

/-- `isFresh(slot)`. -/
def isFresh (r : AnalyserRebuild Settings) (slot : ℕ) : Bool := slot < r.next

/-- `freshCount()`. -/
def freshCount (r : AnalyserRebuild Settings) : ℕ := r.next

/-- `step(analysers, make)`: the replacement is built before anything changes. -/
def step (r : AnalyserRebuild Settings) (analysers : List (Analyser Settings Hop))
    (make : AnalyserConfig Settings → Except BuildError (Analyser Settings Hop)) :
    Except BuildError (AnalyserRebuild Settings × List (Analyser Settings Hop)) :=
  if !r.pending then .ok (r, analysers)
  else do
    let fresh ← make r.config
    return ({ r with next := r.next + 1 }, analysers.set r.next fresh)

variable {r : AnalyserRebuild Settings}

@[simp] theorem pending_eq_true_iff :
    r.pending = true ↔ r.next < r.slots := decide_eq_true_iff

@[simp] theorem isFresh_eq_true_iff {slot : ℕ} :
    r.isFresh slot = true ↔ slot < r.next := decide_eq_true_iff

/-- A `make` that throws is passed on, and one that returns fills the next slot. -/
theorem step_of_pending (h : r.pending = true) (analysers : List (Analyser Settings Hop))
    (make : AnalyserConfig Settings → Except BuildError (Analyser Settings Hop)) :
    r.step analysers make = (make r.config).map fun fresh =>
      ({ r with next := r.next + 1 }, analysers.set r.next fresh) := by
  rw [step, h]
  cases make r.config with
  | error e => rfl
  | ok fresh => rfl

end AnalyserRebuild

/-! ### The snapshot -/

/-- A `Snapshot`, as the slots it was computed from and what stood there. -/
structure PublishedSnapshot (Settings Hop : Type) where
  parts : List (ℕ × Option (Analyser Settings Hop))
  deriving DecidableEq, Repr

/-- The analysers after a call of one slot. -/
def callSlot (analysers : List (Analyser Settings Hop)) (slot : ℕ) (c : AnalyserCall Hop) :
    List (Analyser Settings Hop) :=
  analysers.modify slot fun a => a.call c

/-- One read of a slot for the snapshot. -/
def readSlot (r : List (Analyser Settings Hop) × PublishedSnapshot Settings Hop)
    (read : ℕ × AnalyserCall Hop) : List (Analyser Settings Hop) × PublishedSnapshot Settings Hop :=
  (callSlot r.1 read.1 read.2, ⟨r.2.parts ++ [(read.1, r.1[read.1]?)]⟩)

/-- What `buildPublishedSnapshot` asks of which slot, in its order. -/
def snapshotReads (sync : GroupSync) : List (ℕ × AnalyserCall Hop) :=
  (0, .publish) :: sync.memberAnalyserIndices.map fun slot => (slot, .transferSnapshotForAverage)

/-- `buildPublishedSnapshot(analysers, group, lastTfIndices, plan, ..)`. -/
def buildPublishedSnapshot (analysers : List (Analyser Settings Hop)) (group : AverageGroup)
    (lastTfIndices : List ℕ) (plan : RoutingPlan) :
    (List (Analyser Settings Hop) × PublishedSnapshot Settings Hop) × GroupSync :=
  let sync := syncAverageGroupMembership group lastTfIndices plan
  ((snapshotReads sync).foldl readSlot (analysers, ⟨[]⟩), sync)

/-- A snapshot reads slot 0 and slots of routes. -/
theorem snapshotReads_lt {group : AverageGroup} {last : List ℕ} {plan : RoutingPlan}
    {read : ℕ × AnalyserCall Hop}
    (h : read ∈ snapshotReads (syncAverageGroupMembership group last plan)) :
    read.1 < plan.readSlots := by
  rcases List.mem_cons.mp h with rfl | h
  · simp only [RoutingPlan.readSlots]
    omega
  · obtain ⟨slot, hslot, rfl⟩ := List.mem_map.mp h
    exact syncAverageGroupMembership_lt hslot

end RtaTool
