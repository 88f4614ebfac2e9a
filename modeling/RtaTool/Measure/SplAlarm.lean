import RtaTool.Lib.RollingWindow
import RtaTool.Measure.SplMeter

/-!
# Level alarms

`SplAlarm` compares the level of the last `windowBlocks` closed blocks with a limit each time a
block closes, and keeps the verdict in a latch. `SplChannelState` holds the alarms of a channel in
groups, one for each weighting their metrics name, and gives each group the window of its own
weighting's chain.

A hop may close several blocks, and the alarms run after the whole hop has been fed; `windowAtClose`
cuts the window at an earlier close out of what the chain then holds.

Logarithms and powers are floating point and a parameter, `Decibels`. The history ring, the dose
and the percentile histogram are left out. The markers an alarm writes are kept, up to the store's
bound.

The last field of `SplAlarm`, the comparisons it has made, is bookkeeping that no operation reads.

## Main definitions

* `combineBlocks`, `headroomDb`, `AlarmLatch.update`, `SplAlarm.update`
* `windowAtClose`
* `buildAlarmGroups`, `SplChannelState.onBlockClosed`, `SplChannelState.alarmAt`

## Main results

* `SplAlarm.update_comparisons` -- which blocks an update compares, and with what outcome
* `windowAtClose_eq_rtake` -- what `windowAtClose` cuts out
-/

namespace RtaTool

/-! ### Levels -/

/-- `std::log10` and `std::pow(10, x)`. -/
structure Decibels where
  log10 : ℚ → ℚ
  pow10 : ℚ → ℚ

/-- The part of `WindowResult` the alarm reads. -/
structure WindowResult where
  leqDb : Option ℚ := none
  seconds : ℚ := 0
  excludedBlocks : ℕ := 0

/-- `excludesFromWindow`, over a block's flags. -/
def Block.excluded (b : Block) : Bool := b.flags &&& calibrationInvalidFlag != 0

/-- `combineBlocks(blocks, sampleRate, referenceOffsetDb)`. -/
def combineBlocks (db : Decibels) (blocks : List Block) (sampleRate referenceOffsetDb : ℚ) :
    WindowResult :=
  let members := blocks.filter fun b => !b.excluded
  let sumSquares := (members.map (·.sumSquares)).sum
  let samples := (members.map (·.blockSamples)).sum
  { leqDb :=
      if 0 < samples ∧ 0 < sumSquares then
        some (10 * db.log10 (sumSquares / samples) + referenceOffsetDb)
      else if 0 < samples then some (kLevelFloorDb + referenceOffsetDb)
      else none
    seconds := if 0 < sampleRate then samples / sampleRate else 0
    excludedBlocks := (blocks.filter (·.excluded)).length }

/-- `headroomDb(windowSeconds, elapsedSeconds, elapsedLeqDb, limitDb)`. -/
def headroomDb (db : Decibels) (windowSeconds elapsedSeconds elapsedLeqDb limitDb : ℚ) :
    Option ℚ :=
  if ¬ 0 < windowSeconds then none
  else if ¬ 0 ≤ elapsedSeconds then none
  else
    let remaining := windowSeconds - elapsedSeconds
    if ¬ 0 < remaining then none
    else
      let budget := windowSeconds * db.pow10 (limitDb / 10)
      let spent := elapsedSeconds * db.pow10 (elapsedLeqDb / 10)
      let bracket := (budget - spent) / remaining
      if ¬ 0 < bracket then none else some (10 * db.log10 bracket)

/-- `AlarmLatch::Transition`. -/
inductive Transition
  | none
  | fired
  | cleared
  deriving DecidableEq, Repr

/-- `AlarmLatch`. -/
structure AlarmLatch where
  active : Bool := false

/-- `AlarmLatch::update(windowed, limitDb)`: an absent level is not compared. -/
def AlarmLatch.update (latch : AlarmLatch) (windowed : WindowResult) (limitDb : ℚ) :
    Transition × AlarmLatch :=
  match windowed.leqDb with
  | none => (.none, latch)
  | some leqDb =>
    let isOver := decide (limitDb < leqDb)
    if isOver = latch.active then (.none, latch)
    else (if isOver then .fired else .cleared, { active := isOver })

/-! ### One alarm -/

/-- `SplAlarmState`. -/
inductive SplAlarmState
  | filling
  | clear
  | fired
  deriving DecidableEq, Repr

/-- One comparison: the blocks the latch was given, if any, and the state it left. -/
structure Comparison where
  window : Option (List Block)
  state : SplAlarmState

/-- `SplAlarm`. -/
structure SplAlarm where
  spec : SplAlarmSpec
  metricIndex : Option ℕ
  latch : AlarmLatch := {}
  state : SplAlarmState := .filling
  windowEverFull : Bool := false
  sinceBlock : Option ℕ := none
  headroomDb : Option ℚ := none
  valueDb : ℚ := kLevelFloorDb
  comparisons : List Comparison := []

/-- `SplMarker`, of kind `Alarm`. -/
structure SplMarker where
  blockIndex : ℕ
  direction : ℤ
  quantity : Bytes
  metricIndex : Option ℕ
  window : ℕ
  value : ℚ

/-- `MarkerQuantity`: at most 31 bytes. -/
def markerQuantity (s : Bytes) : Bytes := s.take 31

/-- What an update is told besides its blocks. -/
structure AlarmContext where
  sampleRate : ℚ
  blockSeconds : ℚ
  referenceOffsetDb : ℚ
  currentBlockIndex : ℕ

/-- The headroom half of `SplAlarm::update`. -/
def SplAlarm.headroom (db : Decibels) (spec : SplAlarmSpec) (tail : List Block)
    (windowed : WindowResult) (windowFull : Bool) (ctx : AlarmContext) : Option ℚ :=
  if !windowFull then
    windowed.leqDb.bind fun leqDb =>
      let windowSeconds := spec.windowBlocks * ctx.blockSeconds
      let excludedSecondsSoFar := windowed.excludedBlocks * ctx.blockSeconds
      RtaTool.headroomDb db (windowSeconds - excludedSecondsSoFar) windowed.seconds leqDb
        spec.limitDb
  else if 0 < spec.windowBlocks then
    let recent := (tail.drop 1).take (spec.windowBlocks - 1)
    let recentResult := combineBlocks db recent ctx.sampleRate ctx.referenceOffsetDb
    RtaTool.headroomDb db (recentResult.seconds + ctx.blockSeconds) recentResult.seconds
      (recentResult.leqDb.getD 0) spec.limitDb
  else none

/-- `SplAlarm::update(blocks, ...)`: the alarm, and the marker it writes. -/
def SplAlarm.update (db : Decibels) (ctx : AlarmContext) (alarm : SplAlarm)
    (blocks : List Block) : SplAlarm × Option SplMarker :=
  let spec := alarm.spec
  let take := min spec.windowBlocks blocks.length
  let tail := blocks.drop (blocks.length - take)
  let windowed := combineBlocks db tail ctx.sampleRate ctx.referenceOffsetDb
  let windowFull := decide (take = spec.windowBlocks)
  let forLatch := if windowFull then windowed else {}
  let latched := alarm.latch.update forLatch spec.limitDb
  let transition := latched.1
  let firstValue := windowFull && !alarm.windowEverFull && windowed.leqDb.isSome
  let promoted := if firstValue && transition = .none then .clear else alarm.state
  let state :=
    match transition with
    | .none => promoted
    | .fired => .fired
    | .cleared => .clear
  ({ spec := spec
     metricIndex := alarm.metricIndex
     latch := latched.2
     state := state
     windowEverFull := alarm.windowEverFull || firstValue
     sinceBlock := if transition = .none then alarm.sinceBlock else some ctx.currentBlockIndex
     headroomDb := SplAlarm.headroom db spec tail windowed windowFull ctx
     valueDb := windowed.leqDb.getD alarm.valueDb
     comparisons := alarm.comparisons ++ [⟨if windowFull then some tail else none, state⟩] },
    if transition = .none then none
    else
      some
        { blockIndex := ctx.currentBlockIndex
          direction := if transition = .fired then 1 else -1
          quantity := markerQuantity spec.metricId
          metricIndex := alarm.metricIndex
          window := spec.windowBlocks
          value := windowed.leqDb.getD 0 })

namespace SplAlarm

/-- The latch is given the last `windowBlocks` blocks of what the update is handed, if there are
that many. -/
theorem update_comparisons (db : Decibels) (ctx : AlarmContext) (alarm : SplAlarm)
    (blocks : List Block) :
    (alarm.update db ctx blocks).1.comparisons =
      alarm.comparisons ++ [⟨lastOf alarm.spec.windowBlocks blocks,
        (alarm.update db ctx blocks).1.state⟩] := by
  have hwindow : lastOf alarm.spec.windowBlocks blocks =
      if decide (min alarm.spec.windowBlocks blocks.length = alarm.spec.windowBlocks) then
        some (blocks.drop (blocks.length - min alarm.spec.windowBlocks blocks.length))
      else none := by
    rw [lastOf]
    by_cases h : alarm.spec.windowBlocks ≤ blocks.length
    · rw [if_pos h, Nat.min_eq_left h, if_pos (by simp)]
      rfl
    · rw [if_neg h, if_neg (by rw [decide_eq_true_iff]; omega)]
  rw [hwindow]
  rfl

/-- An alarm whose window has never been full: nothing compared, nothing latched. -/
structure Fresh (alarm : SplAlarm) : Prop where
  latch : alarm.latch.active = false
  state : alarm.state = .filling
  windowEverFull : alarm.windowEverFull = false

/-- A window that is not full leaves an alarm that has never been full as it was. -/
theorem Fresh.update {db : Decibels} {ctx : AlarmContext} {alarm : SplAlarm} (h : alarm.Fresh)
    {blocks : List Block} (hshort : blocks.length < alarm.spec.windowBlocks) :
    (alarm.update db ctx blocks).1.Fresh := by
  have hfull : decide (min alarm.spec.windowBlocks blocks.length = alarm.spec.windowBlocks) =
      false := decide_eq_false (by omega)
  constructor
  · simp only [SplAlarm.update, hfull, AlarmLatch.update]
    exact h.latch
  · simp only [SplAlarm.update, hfull, AlarmLatch.update]
    exact h.state
  · simp only [SplAlarm.update, hfull]
    rw [h.windowEverFull]
    rfl

end SplAlarm

/-! ### The window at an earlier close -/

/-- `windowAtClose(closed, fullWindow, i)`. -/
def windowAtClose (closed fullWindow : List Block) (i : ℕ) : List Block :=
  if closed.length ≤ i then []
  else if closed.length ≤ fullWindow.length then
    fullWindow.take (fullWindow.length - (closed.length - 1 - i))
  else
    let count := min fullWindow.length (i + 1)
    (closed.drop (i + 1 - count)).take count

/-- How many blocks before and including the `i`-th of `n` new ones can be cut out of a window of
capacity `cap`, when `total` have been closed. -/
def keptAtClose (cap n total i : ℕ) : ℕ :=
  if n ≤ min cap total then min cap total - (n - 1 - i) else min (min cap total) (i + 1)

/-- What `windowAtClose` cuts out of the last `cap` blocks is always the end of what had been
closed by then; how much of it depends. -/
theorem windowAtClose_eq_rtake (cap : ℕ) (past closed : List Block) {i : ℕ}
    (hi : i < closed.length) :
    windowAtClose closed ((past ++ closed).rtake cap) i =
      (past ++ closed.take (i + 1)).rtake
        (keptAtClose cap closed.length (past.length + closed.length) i) := by
  rw [windowAtClose, if_neg (Nat.not_le.mpr hi), keptAtClose, length_rtake, List.length_append]
  by_cases hfits : closed.length ≤ min cap (past.length + closed.length)
  · rw [if_pos hfits, if_pos hfits]
    have hsplit : past ++ closed = (past ++ closed.take (i + 1)) ++ closed.drop (i + 1) := by
      rw [List.append_assoc, List.take_append_drop]
    have hlen : (closed.drop (i + 1)).length = closed.length - 1 - i := by
      rw [List.length_drop]
      omega
    have hall : (past ++ closed).rtake cap =
        (past ++ closed).rtake (min cap (past.length + closed.length)) := by
      rw [List.rtake, List.rtake, List.length_append]
      congr 1
      omega
    rw [hall]
    have hle : (closed.drop (i + 1)).length ≤ min cap (past.length + closed.length) := by omega
    have hcut := take_rtake_append (l := past ++ closed.take (i + 1)) hle
    rw [← hsplit, length_rtake, hlen, List.length_append, Nat.min_assoc, Nat.min_self] at hcut
    exact hcut
  · rw [if_neg hfits, if_neg hfits]
    dsimp only
    obtain ⟨m, hm⟩ : ∃ m, m = min (min cap (past.length + closed.length)) (i + 1) := ⟨_, rfl⟩
    have htake : (closed.take (i + 1)).length = i + 1 := by
      rw [List.length_take]
      omega
    have hpast : past.drop (past.length + (i + 1) - m) = [] := by
      rw [List.drop_eq_nil_iff]
      omega
    have hdrop : past.length + (i + 1) - m - past.length = i + 1 - m := by omega
    have hcount : i + 1 - (i + 1 - m) = m := by omega
    rw [← hm, List.rtake, List.length_append, htake, List.drop_append, hpast, hdrop,
      List.nil_append, List.drop_take, hcount]

/-! ### The alarms of a channel -/

/-- One alarm of a group, before it is built: its spec, the index of the metric it names, and its
own index in the configuration. -/
structure AlarmEntry where
  spec : SplAlarmSpec
  metricIndex : Option ℕ
  configIndex : ℕ

/-- `Bucket`. -/
structure Bucket where
  weighting : Option WeightingType
  entries : List AlarmEntry

/-- The first metric with the given id, and its index. -/
def SplConfig.metricNamed (config : SplConfig) (metricId : Bytes) : Option (SplMetricSpec × ℕ) :=
  config.metrics.zipIdx.find? fun m => m.1.id = metricId

/-- An entry goes to the first bucket of its weighting, or to a new one. -/
def addToBucket (weighting : Option WeightingType) (entry : AlarmEntry) : List Bucket → List Bucket
  | [] => [⟨weighting, [entry]⟩]
  | b :: bs =>
    if b.weighting = weighting then { b with entries := b.entries ++ [entry] } :: bs
    else b :: addToBucket weighting entry bs

/-- The entry of a configured alarm. -/
def SplConfig.entryOf (config : SplConfig) (alarm : SplAlarmSpec × ℕ) : AlarmEntry where
  spec := alarm.1
  metricIndex := (config.metricNamed alarm.1.metricId).map (·.2)
  configIndex := alarm.2

/-- The weighting of the metric an alarm names, if it names one. -/
def SplConfig.weightingOf (config : SplConfig) (spec : SplAlarmSpec) : Option WeightingType :=
  (config.metricNamed spec.metricId).map (·.1.weighting)

/-- The first half of `buildAlarmGroups`. -/
def SplConfig.buckets (config : SplConfig) : List Bucket :=
  config.alarms.zipIdx.foldl
    (fun bs alarm => addToBucket (config.weightingOf alarm.1) (config.entryOf alarm) bs) []

/-- `SplChannelState::AlarmGroup`. -/
structure AlarmGroup where
  weighting : Option WeightingType
  alarms : List SplAlarm

/-- The second half of `buildAlarmGroups`. -/
def Bucket.group (b : Bucket) : AlarmGroup where
  weighting := b.weighting
  alarms := b.entries.map fun e => { spec := e.spec, metricIndex := e.metricIndex }

/-- `SplHistory`, less the ring of blocks. -/
structure SplHistory where
  markers : List SplMarker := []
  overflowedMarkers : ℕ := 0

/-- `kMaxMarkers`. -/
def kMaxMarkers : ℕ := 4096

/-- `SplHistory::addMarker(marker)`: counted and dropped once the store is full. -/
def SplHistory.addMarker (h : SplHistory) (marker : SplMarker) : SplHistory :=
  if kMaxMarkers ≤ h.markers.length then { h with overflowedMarkers := h.overflowedMarkers + 1 }
  else { h with markers := h.markers ++ [marker] }

/-- `SplChannelState`, less the dose and the percentiles. -/
structure SplChannelState where
  sampleRate : ℚ
  blockSeconds : ℚ
  referenceOffsetDb : ℚ
  history : SplHistory
  alarmGroups : List AlarmGroup
  alarmPublishOrder : List ℕ

/-- `ChainBlockAtClose`. -/
structure ChainBlockAtClose where
  weighting : WeightingType
  block : Block
  windowThroughThisBlock : List Block

namespace SplChannelState

/-- The constructor. -/
def make (config : SplConfig) (sampleRate : ℚ) : SplChannelState where
  sampleRate := sampleRate
  blockSeconds := config.blockSeconds
  referenceOffsetDb := config.referenceOffsetDb
  history := {}
  alarmGroups := config.buckets.map (·.group)
  alarmPublishOrder := config.buckets.flatMap fun b => b.entries.map (·.configIndex)

/-- What one group's alarms are handed, if its weighting is among the chains. -/
def windowFor (chains : List ChainBlockAtClose) (weighting : Option WeightingType) :
    Option (List Block) :=
  weighting.bind fun w => (chains.find? (·.weighting = w)).map (·.windowThroughThisBlock)

/-- An alarm after its group has been evaluated, and the marker it wrote. -/
def evaluate (db : Decibels) (ctx : AlarmContext) (window : Option (List Block))
    (alarm : SplAlarm) : SplAlarm × Option SplMarker :=
  match window with
  | none => (alarm, none)
  | some blocks => alarm.update db ctx blocks

/-- The context of the alarms when a block closes. -/
def context (st : SplChannelState) (currentBlockIndex : ℕ) : AlarmContext where
  sampleRate := st.sampleRate
  blockSeconds := st.blockSeconds
  referenceOffsetDb := st.referenceOffsetDb
  currentBlockIndex := currentBlockIndex

/-- `onBlockClosed(chains)`. The alarms do not read the history, so the markers of a close are
appended after all of them have been evaluated. -/
def onBlockClosed (db : Decibels) (st : SplChannelState) (chains : List ChainBlockAtClose) :
    SplChannelState :=
  match chains with
  | [] => st
  | front :: _ =>
    let ctx := st.context front.block.blockIndex
    let evaluated := st.alarmGroups.map fun g =>
      (g.weighting, g.alarms.map (evaluate db ctx (windowFor chains g.weighting)))
    { st with
      history := (evaluated.flatMap fun g => g.2.filterMap (·.2)).foldl SplHistory.addMarker
        st.history
      alarmGroups := evaluated.map fun g => ⟨g.1, g.2.map (·.1)⟩ }

/-- The alarms with their group's weighting, in the order of the groups. -/
def flattened (st : SplChannelState) : List (Option WeightingType × SplAlarm) :=
  st.alarmGroups.flatMap fun g => g.alarms.map fun alarm => (g.weighting, alarm)

/-- The alarm whose reading `fillPublish` puts at a position of the configuration. -/
def alarmAt (st : SplChannelState) (configIndex : ℕ) : Option (Option WeightingType × SplAlarm) :=
  ((st.alarmPublishOrder.zip st.flattened).find? (·.1 = configIndex)).map (·.2)

section

variable (db : Decibels) (st : SplChannelState) (front : ChainBlockAtClose)
  (rest : List ChainBlockAtClose)

theorem flattened_onBlockClosed :
    (st.onBlockClosed db (front :: rest)).flattened = st.flattened.map fun a =>
      (a.1, (evaluate db (st.context front.block.blockIndex) (windowFor (front :: rest) a.1)
        a.2).1) := by
  simp only [flattened, onBlockClosed, List.flatMap_map, List.map_flatMap, List.map_map,
    Function.comp_def]

theorem alarmAt_onBlockClosed (k : ℕ) :
    (st.onBlockClosed db (front :: rest)).alarmAt k = (st.alarmAt k).map fun a =>
      (a.1, (evaluate db (st.context front.block.blockIndex) (windowFor (front :: rest) a.1)
        a.2).1) := by
  have horder : (st.onBlockClosed db (front :: rest)).alarmPublishOrder = st.alarmPublishOrder :=
    rfl
  rw [alarmAt, alarmAt, horder, flattened_onBlockClosed, List.zip_map_right, List.find?_map]
  simp only [Option.map_map]
  rfl

end

/-! ### Every configured alarm has its place -/

/-- The entries of some buckets with the weightings they stand under. -/
def placed (bs : List Bucket) : List (Option WeightingType × AlarmEntry) :=
  bs.flatMap fun b => b.entries.map fun e => (b.weighting, e)

variable {x : Option WeightingType × AlarmEntry} {config : SplConfig}

theorem mem_placed_addToBucket {w : Option WeightingType} {e : AlarmEntry} {bs : List Bucket} :
    x ∈ placed (addToBucket w e bs) ↔ x = (w, e) ∨ x ∈ placed bs := by
  induction bs with
  | nil => simp [placed, addToBucket]
  | cons b bs ih =>
    rw [addToBucket]
    split
    · rename_i hb
      simp only [placed, List.flatMap_cons, List.map_append, List.mem_append, List.map_cons,
        List.map_nil, List.mem_singleton, hb]
      tauto
    · have hcons : ∀ l, placed (b :: l) = (b.entries.map fun e => (b.weighting, e)) ++ placed l :=
        fun l => List.flatMap_cons
      rw [hcons, hcons, List.mem_append, List.mem_append, ih]
      tauto

theorem mem_placed_buckets :
    x ∈ placed config.buckets ↔ ∃ spec k, config.alarms[k]? = some spec ∧
      x = (config.weightingOf spec, config.entryOf (spec, k)) := by
  have hfold : ∀ (alarms : List (SplAlarmSpec × ℕ)) (bs : List Bucket),
      x ∈ placed (alarms.foldl (fun bs alarm =>
        addToBucket (config.weightingOf alarm.1) (config.entryOf alarm) bs) bs) ↔
      x ∈ placed bs ∨ ∃ alarm ∈ alarms, x = (config.weightingOf alarm.1, config.entryOf alarm) := by
    intro alarms
    induction alarms with
    | nil => intro bs; simp
    | cons alarm alarms ih =>
      intro bs
      rw [List.foldl_cons, ih, mem_placed_addToBucket, List.exists_mem_cons_iff]
      tauto
  rw [SplConfig.buckets, hfold]
  simp only [placed, List.flatMap_nil, List.not_mem_nil, false_or, Prod.exists,
    List.mem_zipIdx_iff_getElem?]

theorem zip_flatMap {α β γ : Type} (f : γ → List α) (g : γ → List β)
    (h : ∀ c, (f c).length = (g c).length) (cs : List γ) :
    (cs.flatMap f).zip (cs.flatMap g) = cs.flatMap fun c => (f c).zip (g c) := by
  induction cs with
  | nil => rfl
  | cons c cs ih =>
    rw [List.flatMap_cons, List.flatMap_cons, List.flatMap_cons, List.zip_append (h c), ih]

/-- The row of a placed entry in the table `alarmAt` looks an alarm up in. -/
def row (x : Option WeightingType × AlarmEntry) : ℕ × Option WeightingType × SplAlarm :=
  (x.2.configIndex, x.1, { spec := x.2.spec, metricIndex := x.2.metricIndex })

theorem zip_make (config : SplConfig) (sampleRate : ℚ) :
    (make config sampleRate).alarmPublishOrder.zip (make config sampleRate).flattened =
      (placed config.buckets).map row := by
  simp only [make, flattened, List.flatMap_map]
  rw [zip_flatMap _ _ fun b => by simp [Bucket.group], placed, List.map_flatMap]
  congr 1
  funext b
  simp only [Bucket.group, List.map_map]
  exact List.zip_map' ..

theorem alarmAt_make (sampleRate : ℚ) {k : ℕ} {spec : SplAlarmSpec}
    (hspec : config.alarms[k]? = some spec) :
    (make config sampleRate).alarmAt k = some (config.weightingOf spec,
      { spec := spec, metricIndex := (config.metricNamed spec.metricId).map (·.2) }) := by
  have hmem : (config.weightingOf spec, config.entryOf (spec, k)) ∈ placed config.buckets :=
    mem_placed_buckets.mpr ⟨spec, k, hspec, rfl⟩
  have hsome : (((placed config.buckets).map row).find? (·.1 = k)).isSome :=
    List.find?_isSome.mpr ⟨_, List.mem_map_of_mem hmem, by simp [row, SplConfig.entryOf]⟩
  obtain ⟨found, hfound⟩ := Option.isSome_iff_exists.mp hsome
  rw [alarmAt, zip_make, hfound]
  -- whatever is found under `k` is the entry of `k`
  have hkey := List.find?_some hfound
  obtain ⟨x, hx, rfl⟩ := List.mem_map.mp (List.mem_of_find?_eq_some hfound)
  obtain ⟨spec', k', hspec', rfl⟩ := mem_placed_buckets.mp hx
  obtain rfl : k' = k := of_decide_eq_true hkey
  obtain rfl : spec' = spec := Option.some.inj (hspec'.symm.trans hspec)
  rfl

end SplChannelState

end RtaTool
