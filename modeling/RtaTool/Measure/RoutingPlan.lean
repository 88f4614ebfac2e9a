import Mathlib.Data.List.Sort
import RtaTool.Platform.CaptureBus

/-!
# Routes

`planRouting` pairs every measurement channel with the first reference channel of the same
transfer function, and `pairedHopCount` says how many whole hops a group of rings can advance
together.

## Main definitions

* `TransferRoute`, `RoutingPlan`, `planRouting`
* `pairedHopCount`

## Main results

* `RoutingPlan.UpTo.addRoute`, `planRouting_upTo` -- a plan routes a measurement channel once
* `pairedHopCount_mul_le` -- no ring is asked for more than it had
-/

namespace RtaTool

/-- `kMaxTransferFunctions`. -/
def kMaxTransferFunctions : ℕ := 8

/-- `TransferRoute`. -/
structure TransferRoute where
  tfIndex : ℕ
  referenceChannel : ℕ
  measurementChannel : ℕ
  deriving DecidableEq, Repr

/-- `RoutingPlan`. -/
structure RoutingPlan where
  routes : List TransferRoute := []
  distinctReferences : List ℕ := []
  unroutedMeasurements : List ℕ := []
  deriving DecidableEq, Repr

namespace RoutingPlan

/-- A route, and its reference if that is new. -/
def addRoute (plan : RoutingPlan) (route : TransferRoute) : RoutingPlan :=
  { plan with
    routes := plan.routes ++ [route]
    distinctReferences :=
      if route.referenceChannel ∈ plan.distinctReferences then plan.distinctReferences
      else plan.distinctReferences ++ [route.referenceChannel] }

/-- A measurement channel without a reference. -/
def addUnrouted (plan : RoutingPlan) (m : ℕ) : RoutingPlan :=
  { plan with unroutedMeasurements := plan.unroutedMeasurements ++ [m] }

/-- The references in ascending order. -/
def sorted (plan : RoutingPlan) : RoutingPlan :=
  { plan with distinctReferences := plan.distinctReferences.insertionSort (· ≤ ·) }

end RoutingPlan

/-- A reference channel of a transfer function. -/
def isReferenceOf (config : ChannelConfig) (tf r : ℕ) : Bool :=
  config.roles r = .reference && config.tfIndex r = tf

/-- The first reference channel of a transfer function, among the first `count` channels. -/
def referenceOf (config : ChannelConfig) (count tf : ℕ) : Option ℕ :=
  (List.range count).find? (isReferenceOf config tf)

/-- One turn of `planRouting`'s outer loop. -/
def planMeasurement (config : ChannelConfig) (count : ℕ) (plan : RoutingPlan) (m : ℕ) :
    RoutingPlan :=
  if config.roles m ≠ .measurement then plan
  else
    match referenceOf config count (config.tfIndex m) with
    | none => plan.addUnrouted m
    | some r => plan.addRoute ⟨config.tfIndex m, r, m⟩

/-- `planRouting(config, channelCount)`. -/
def planRouting (config : ChannelConfig) (channelCount : ℤ) : RoutingPlan :=
  let count := min channelCount.toNat kMaxChannels
  ((List.range count).foldl (planMeasurement config count) {}).sorted

/-- `pairedHopCount(available, hop)`. -/
def pairedHopCount (available : List ℕ) (hop : ℕ) : ℕ :=
  if hop = 0 then 0 else (available.min?.getD 0) / hop

theorem pairedHopCount_mul_le {available : List ℕ} {a : ℕ} (ha : a ∈ available) (hop : ℕ) :
    pairedHopCount available hop * hop ≤ a := by
  rw [pairedHopCount]
  split
  · omega
  · obtain ⟨least, hleast⟩ : ∃ least, available.min? = some least :=
      Option.ne_none_iff_exists'.mp fun hnone => by
        rw [List.min?_eq_none_iff.mp hnone] at ha
        cases ha
    have hle : least ≤ a := (List.min?_eq_some_iff.mp hleast).2 a ha
    rw [hleast, Option.getD_some]
    exact (Nat.div_mul_le_self _ _).trans hle

/-! ### What a plan routes -/

/-- The routes of the measurement channels below `m`, in their order, to references below
`count`. -/
structure RoutingPlan.UpTo (plan : RoutingPlan) (count m : ℕ) : Prop where
  ascending : plan.routes.Pairwise (·.measurementChannel < ·.measurementChannel)
  measurement_lt : ∀ route ∈ plan.routes, route.measurementChannel < m
  reference_lt : ∀ route ∈ plan.routes, route.referenceChannel < count

namespace RoutingPlan

theorem upTo_empty (count m : ℕ) : UpTo {} count m :=
  ⟨.nil, fun _ h => (List.not_mem_nil h).elim, fun _ h => (List.not_mem_nil h).elim⟩

variable {plan : RoutingPlan} {count m : ℕ}

theorem UpTo.addUnrouted (h : plan.UpTo count m) (n : ℕ) :
    (plan.addUnrouted n).UpTo count m :=
  ⟨h.ascending, h.measurement_lt, h.reference_lt⟩

theorem UpTo.succ (h : plan.UpTo count m) :
    plan.UpTo count (m + 1) :=
  ⟨h.ascending, fun route hroute => (h.measurement_lt route hroute).trans (Nat.lt_succ_self m),
    h.reference_lt⟩

theorem UpTo.addRoute {count m r : ℕ} (h : plan.UpTo count m)
    (hr : r < count) (tf : ℕ) : (plan.addRoute ⟨tf, r, m⟩).UpTo count (m + 1) := by
  constructor
  · refine List.pairwise_append.mpr ⟨h.ascending, List.pairwise_singleton _ _, ?_⟩
    intro route hroute last hlast
    rw [List.mem_singleton.mp hlast]
    exact h.measurement_lt route hroute
  · intro route hroute
    rcases List.mem_append.mp hroute with hroute | hroute
    · exact h.succ.measurement_lt route hroute
    · rw [List.mem_singleton.mp hroute]
      exact Nat.lt_succ_self m
  · intro route hroute
    rcases List.mem_append.mp hroute with hroute | hroute
    · exact h.reference_lt route hroute
    · rw [List.mem_singleton.mp hroute]
      exact hr

end RoutingPlan

theorem planMeasurement_upTo {config : ChannelConfig} {count m : ℕ} {plan : RoutingPlan}
    (h : plan.UpTo count m) : (planMeasurement config count plan m).UpTo count (m + 1) := by
  rw [planMeasurement]
  split
  · exact h.succ
  · split
    · exact (h.addUnrouted m).succ
    · rename_i r hr
      exact h.addRoute (List.mem_range.mp (List.mem_of_find?_eq_some hr)) _

/-- A plan routes each measurement channel once, and only channels there are. -/
theorem planRouting_upTo (config : ChannelConfig) (channelCount : ℤ) :
    (planRouting config channelCount).UpTo (min channelCount.toNat kMaxChannels)
      (min channelCount.toNat kMaxChannels) := by
  have hfold : ∀ count n,
      ((List.range n).foldl (planMeasurement config count) {}).UpTo count n := by
    intro count n
    induction n with
    | zero => exact RoutingPlan.upTo_empty count 0
    | succ n ih =>
      rw [List.range_succ, List.foldl_append]
      exact planMeasurement_upTo ih
  have h := hfold (min channelCount.toNat kMaxChannels) (min channelCount.toNat kMaxChannels)
  exact ⟨h.ascending, h.measurement_lt, h.reference_lt⟩

end RtaTool
