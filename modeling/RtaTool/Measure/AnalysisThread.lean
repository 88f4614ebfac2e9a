import RtaTool.Measure.AnalyserRebuild
import RtaTool.Measure.CaptureThreads

/-!
# The analysis thread's loop

One tick after another the thread looks for a new epoch and for a requested delay, rebuilds one
analyser if a rebuild is pending, drains the rings into the analysers and publishes. Meanwhile the
device thread prepares the bus and the message thread applies a reference delay. Here the tick is
cut at its accesses to what the threads share, at the pushes of a hop and at whatever may throw, and
interleaved with the other two.

What the tick finds in the rings, which plan the loads of `planRouting` made of roles that may
change in between, how many hops a drain gets, what the clock says and which builds fail is given by
the actions, so it may be anything. `RtaTool.Measure.CaptureThreads` has the rings.

`latched` and `sweeps` are bookkeeping: the configuration of the most recent `begin`, which before
the first is the constructor's, and how many there have been.

## Main definitions

* `AnalyserBank` -- the analysers, which of them are stale, and what was made of them
* `TickPc`, `AnalysisRun`, `AnalysisAct`, `analysisThread` -- the machine
* `BankStep` -- what a step can do to the bank

## Main results

* `analysisStep_bank` -- every step of the machine is a step of the bank
-/

namespace RtaTool

variable {Settings Hop : Type}

/-- `Fault::Kind`. -/
inductive FaultKind
  | none
  | openFailed
  | deviceError
  | deviceStopped
  | recovering
  deriving DecidableEq, Repr

/-- `Fault`. -/
structure Fault where
  kind : FaultKind := .none
  message : String := ""
  sequence : UInt32 := 0
  deriving DecidableEq, Repr

/-- `recordFault(kind, message)`. -/
def Fault.record (f : Fault) (kind : FaultKind) (message : String) : Fault :=
  ⟨kind, message, f.sequence + 1⟩

/-! ### The bank -/

/-- The analysers of the thread, which are stale, the delay they apply and the snapshot they last
gave. -/
structure AnalyserBank (Settings Hop : Type) where
  analysers : List (Analyser Settings Hop)
  rebuild : AnalyserRebuild Settings
  appliedReferenceDelay : ℤ := 0
  latest : Option (PublishedSnapshot Settings Hop) := none
  latched : AnalyserConfig Settings
  sweeps : ℕ := 0

namespace AnalyserBank

/-- The bank the constructor builds: the whole set, from one configuration. -/
def construct [Inhabited Settings] (config : AnalyserConfig Settings) :
    AnalyserBank Settings Hop where
  analysers := List.replicate kMaxTransferFunctions { config := config, sweep := 0 }
  rebuild := AnalyserRebuild.start kMaxTransferFunctions
  latched := config

/-- `rebuild_.begin(config)`. -/
def begin (b : AnalyserBank Settings Hop) (config : AnalyserConfig Settings) :
    AnalyserBank Settings Hop :=
  { b with rebuild := b.rebuild.begin config, latched := config, sweeps := b.sweeps + 1 }

/-- The allocation of an `Analyser`, or what it throws. -/
def make (b : AnalyserBank Settings Hop) (failure : Option BuildError)
    (config : AnalyserConfig Settings) : Except BuildError (Analyser Settings Hop) :=
  match failure with
  | none => .ok { config := config, sweep := b.sweeps }
  | some e => .error e

/-- What `stepRebuild` does to the bank when a rebuild is pending. -/
def build (b : AnalyserBank Settings Hop) (failure : Option BuildError) :
    Except BuildError (AnalyserBank Settings Hop) := do
  let (rebuild, analysers) ← b.rebuild.step b.analysers (b.make failure)
  if rebuild.pending then return { b with rebuild := rebuild, analysers := analysers }
  else
    return { b with
      rebuild := rebuild
      analysers := analysers
      appliedReferenceDelay := rebuild.config.referenceDelaySamples }

/-- The bank after a build that succeeds: one slot more, and with the last the delay. -/
def built (b : AnalyserBank Settings Hop) : AnalyserBank Settings Hop :=
  { b with
    rebuild := { b.rebuild with next := b.rebuild.next + 1 }
    analysers := b.analysers.set b.rebuild.next { config := b.rebuild.config, sweep := b.sweeps }
    appliedReferenceDelay :=
      if b.rebuild.next + 1 < b.rebuild.slots then b.appliedReferenceDelay
      else b.rebuild.config.referenceDelaySamples }

variable {b : AnalyserBank Settings Hop}

theorem build_none (h : b.rebuild.pending = true) :
    b.build none = .ok b.built := by
  rw [build, AnalyserRebuild.step_of_pending h, built]
  by_cases hnext : b.rebuild.next + 1 < b.rebuild.slots
  · rw [if_pos hnext]
    exact if_pos (AnalyserRebuild.pending_eq_true_iff.mpr hnext)
  · rw [if_neg hnext]
    exact if_neg fun hpending => hnext (AnalyserRebuild.pending_eq_true_iff.mp hpending)

theorem build_some (h : b.rebuild.pending = true)
    (e : BuildError) : b.build (some e) = .error e := by
  rw [build, AnalyserRebuild.step_of_pending h]
  rfl

/-- A push into a slot, if it is fresh. -/
def feed (b : AnalyserBank Settings Hop) (slot : ℕ) (c : AnalyserCall Hop) :
    AnalyserBank Settings Hop :=
  if b.rebuild.isFresh slot then { b with analysers := callSlot b.analysers slot c } else b

/-- A snapshot of the slots read. -/
def publish (b : AnalyserBank Settings Hop) (reads : List (ℕ × AnalyserCall Hop)) :
    AnalyserBank Settings Hop :=
  let r := reads.foldl readSlot (b.analysers, ⟨[]⟩)
  { b with analysers := r.1, latest := some r.2 }

end AnalyserBank

/-- What a step can do to the bank. -/
inductive BankStep (b : AnalyserBank Settings Hop) : AnalyserBank Settings Hop → Prop
  | quiet : BankStep b b
  | begin (config : AnalyserConfig Settings) : BankStep b (b.begin config)
  | build (hpending : b.rebuild.pending = true) : BankStep b b.built
  | feed (slot : ℕ) (c : AnalyserCall Hop) : BankStep b (b.feed slot c)
  | publish (reads : List (ℕ × AnalyserCall Hop))
      (hfresh : ∀ read ∈ reads, b.rebuild.isFresh read.1 = true) : BankStep b (b.publish reads)

/-! ### The machine -/

/-- The analysis thread: in its constructor, in one tick of `runBody`, or over. -/
inductive TickPc (Hop : Type)
  | constructing
  | epochRead (epoch : ℕ)
  | waiting
  | servicing
  | epochCheck
  | epochRate
  | applyCheck
  | applyLoad
  | applyRate
  | rebuilding
  | gateCheck
  | planning
  | groups (plan : RoutingPlan) (refs : List ℕ)
  | hops (g : DrainGroup)
  | feeding (g : DrainGroup) (reference : Hop) (measurements : ℕ → Hop)
      (todo : List (TransferRoute × ℕ))
  | roleHops (isReference : Bool)
  | publishing
  | over

/-- The bus, the requests and the thread. `preparing` and `requesting` say that the device thread has
stored the rate and not bumped the epoch, and that the message thread has stored the delay and not
raised its flag. -/
structure AnalysisRun (Settings Hop : Type) where
  epoch : ℕ
  sampleRate : ℚ
  preparing : Bool := false
  pendingReferenceDelay : ℤ := 0
  applyDelayRequested : Bool := false
  requesting : Bool := false
  baseConfig : AnalyserConfig Settings
  lastEpoch : ℕ := 0
  rebuildFaultRecorded : Bool := false
  lastPublishMs : UInt32 := 0
  averageGroup : AverageGroup := {}
  lastGroupTfIndices : List ℕ := []
  fault : Fault := {}
  bank : AnalyserBank Settings Hop
  pc : TickPc Hop := .constructing

/-- What the threads do. `step` is the analysis thread where it needs nothing from outside. -/
inductive AnalysisAct (Hop : Type)
  | prepare (sampleRate : ℚ)
  | bumpEpoch
  | applyReferenceDelay (delaySamples : ℤ)
  | requestApply
  | step
  | build (failure : Option BuildError)
  | gate (resyncPending : Bool)
  | plan (plan : RoutingPlan)
  | hop (reference : Hop) (measurements : ℕ → Hop)
  | roleHop (samples : Hop)
  | drained
  | publish (now : UInt32) (plan : RoutingPlan)
  | throws (what : String)
  | exit

/-- `kMinPublishIntervalMs`. -/
def kMinPublishIntervalMs : UInt32 := 50

namespace AnalysisRun

/-- The thread in its constructor, with `baseConfig_` and the analysers in place. -/
def start [Inhabited Settings] (config : AnalyserConfig Settings) (epoch : ℕ) (sampleRate : ℚ)
    (preparing : Bool) : AnalysisRun Settings Hop where
  epoch := epoch
  sampleRate := sampleRate
  preparing := preparing
  baseConfig := config
  bank := .construct config

/-- `startRebuild()`. -/
def startRebuild (s : AnalysisRun Settings Hop) : AnalysisRun Settings Hop :=
  { s with
    bank := s.bank.begin
      (if 0 < s.sampleRate then { s.baseConfig with sampleRate := s.sampleRate }
        else s.baseConfig) }

/-- `run()`'s catch. -/
def threadFault (s : AnalysisRun Settings Hop) (what : String) : AnalysisRun Settings Hop :=
  { s with fault := s.fault.record .deviceError what, pc := .over }

/-- The end of the constructor: is there anything for the first tick to rebuild? -/
def finishConstruction (s : AnalysisRun Settings Hop) (epochAtStart : ℕ) :
    AnalysisRun Settings Hop :=
  if s.sampleRate ≤ 0 ∨ s.sampleRate = s.baseConfig.sampleRate then
    { s with lastEpoch := epochAtStart, pc := .waiting }
  else { s with pc := .waiting }

/-- `stepRebuild()` where a rebuild is pending. -/
def stepRebuild (s : AnalysisRun Settings Hop) (failure : Option BuildError) :
    AnalysisRun Settings Hop :=
  match s.bank.build failure with
  | .error (.other what) => s.threadFault what
  | .error .badAlloc =>
    if s.rebuildFaultRecorded then { s with pc := .gateCheck }
    else
      { s with
        rebuildFaultRecorded := true
        fault := s.fault.record .recovering "analyser rebuild failed: out of memory (retrying)"
        pc := .gateCheck }
  | .ok bank =>
    if !bank.rebuild.pending && s.rebuildFaultRecorded then
      { s with
        rebuildFaultRecorded := false
        fault := s.fault.record .none ""
        bank := bank
        pc := .gateCheck }
    else { s with bank := bank, pc := .gateCheck }

/-- One route's turn in the hop loop of `drainPaired`. -/
def feedRoute (s : AnalysisRun Settings Hop) (reference : Hop) (measurements : ℕ → Hop)
    (route : TransferRoute × ℕ) : AnalysisRun Settings Hop :=
  if kMaxTransferFunctions ≤ route.2 then s
  else
    { s with
      bank := s.bank.feed route.2 (.pushPair reference (measurements route.1.measurementChannel)) }

/-- One hop of `drainRole`. -/
def feedRole (s : AnalysisRun Settings Hop) (isReference : Bool) (samples : Hop) :
    AnalysisRun Settings Hop :=
  { s with
    bank := s.bank.feed 0 (if isReference then .pushReference samples
      else .pushMeasurement samples) }

/-- `publishIfDue()`. -/
def publishIfDue (s : AnalysisRun Settings Hop) (now : UInt32) (plan : RoutingPlan) :
    AnalysisRun Settings Hop :=
  if s.lastPublishMs ≠ 0 ∧ now - s.lastPublishMs < kMinPublishIntervalMs then s
  else if s.bank.rebuild.freshCount < plan.readSlots then s
  else
    let sync := syncAverageGroupMembership s.averageGroup s.lastGroupTfIndices plan
    { s with
      lastPublishMs := now
      bank := s.bank.publish (snapshotReads sync)
      averageGroup := sync.group
      lastGroupTfIndices := sync.lastTfIndices }

/-- The next access of the analysis thread. -/
def tick (s : AnalysisRun Settings Hop) : Option (AnalysisRun Settings Hop) :=
  match s.pc with
  | .constructing => some { s with pc := .epochRead s.epoch }
  | .epochRead epochAtStart => some (s.finishConstruction epochAtStart)
  | .waiting => some { s with pc := .servicing }
  | .servicing => some { s with pc := .epochCheck }
  | .epochCheck =>
    if s.epoch = s.lastEpoch then some { s with pc := .applyCheck }
    else some { s with lastEpoch := s.epoch, pc := .epochRate }
  | .epochRate => some { s.startRebuild with pc := .applyCheck }
  | .applyCheck =>
    if s.applyDelayRequested then some { s with applyDelayRequested := false, pc := .applyLoad }
    else some { s with pc := .rebuilding }
  | .applyLoad =>
    some { s with
      baseConfig := { s.baseConfig with referenceDelaySamples := s.pendingReferenceDelay }
      pc := .applyRate }
  | .applyRate => some { s.startRebuild with pc := .rebuilding }
  | .rebuilding => if s.bank.rebuild.pending then none else some { s with pc := .gateCheck }
  | .groups _ [] => some { s with pc := .publishing }
  | .groups plan (ref :: refs) => some { s with pc := .hops ⟨plan, ref, refs⟩ }
  | .feeding g _ _ [] => some { s with pc := .hops g }
  | .feeding g reference measurements (route :: todo) =>
    some { s.feedRoute reference measurements route with
      pc := .feeding g reference measurements todo }
  | .gateCheck | .planning | .hops _ | .roleHops _ | .publishing | .over => none

/-- An access of the analysis thread that depends on what it finds outside. -/
def tickWith (s : AnalysisRun Settings Hop) (a : AnalysisAct Hop) :
    Option (AnalysisRun Settings Hop) :=
  match s.pc, a with
  | .rebuilding, .build failure =>
    if s.bank.rebuild.pending then some (s.stepRebuild failure) else none
  | .gateCheck, .gate resyncPending =>
    some { s with pc := if resyncPending then .publishing else .planning }
  | .planning, .plan plan =>
    some { s with
      pc := if plan.routes = [] then .roleHops false else .groups plan plan.distinctReferences }
  | .hops g, .hop reference measurements =>
    some { s with pc := .feeding g reference measurements g.routes }
  | .hops g, .drained => some { s with pc := .groups g.plan g.refs }
  | .roleHops isReference, .roleHop samples => some (s.feedRole isReference samples)
  | .roleHops isReference, .drained =>
    some { s with pc := if isReference then .publishing else .roleHops true }
  | .publishing, .publish now plan => some { s.publishIfDue now plan with pc := .waiting }
  | .constructing, _ | .epochRead _, _ | .over, _ => none
  | _, .throws what => some (s.threadFault what)
  | .waiting, .exit => some { s with pc := .over }
  | _, _ => none

end AnalysisRun

/-- One step of one of the threads. -/
def analysisStep (s : AnalysisRun Settings Hop) (a : AnalysisAct Hop) :
    Option (AnalysisRun Settings Hop) :=
  match a with
  | .prepare sampleRate =>
    if s.preparing then none else some { s with sampleRate := sampleRate, preparing := true }
  | .bumpEpoch =>
    if s.preparing then some { s with epoch := s.epoch + 1, preparing := false } else none
  | .applyReferenceDelay delaySamples =>
    if s.requesting then none
    else some { s with pendingReferenceDelay := delaySamples, requesting := true }
  | .requestApply =>
    if s.requesting then some { s with applyDelayRequested := true, requesting := false } else none
  | .step => s.tick
  | _ => s.tickWith a

/-- The three threads. The analysis thread is constructed at any moment of the device thread. -/
def analysisThread [Inhabited Settings] (config : AnalyserConfig Settings) :
    Machine (AnalysisRun Settings Hop) (AnalysisAct Hop) where
  init s := ∃ epoch sampleRate preparing, s = .start config epoch sampleRate preparing
  step := analysisStep

/-! ### A step of the machine is a step of the bank -/

namespace AnalysisRun

variable {s t : AnalysisRun Settings Hop}

theorem tick_bank (h : s.tick = some t) :
    BankStep s.bank t.bank := by
  simp only [tick] at h
  split at h
  · cases h
    exact .quiet
  · cases h
    simp only [finishConstruction]
    split <;> exact .quiet
  · cases h
    exact .quiet
  · cases h
    exact .quiet
  · split at h <;> cases h <;> exact .quiet
  · cases h
    exact .begin _
  · split at h <;> cases h <;> exact .quiet
  · cases h
    exact .quiet
  · cases h
    exact .begin _
  · split at h <;> cases h
    exact .quiet
  · cases h
    exact .quiet
  · cases h
    exact .quiet
  · cases h
    exact .quiet
  · rename_i route todo _
    cases h
    simp only [feedRoute]
    split
    · exact .quiet
    · exact .feed _ _
  all_goals cases h

theorem stepRebuild_of_failure {s : AnalysisRun Settings Hop}
    (hpending : s.bank.rebuild.pending = true) (e : BuildError) :
    (s.stepRebuild (some e)).bank = s.bank := by
  rw [stepRebuild, AnalyserBank.build_some hpending]
  cases e with
  | badAlloc =>
    dsimp only
    split <;> rfl
  | other what => rfl

theorem stepRebuild_bank {s : AnalysisRun Settings Hop} (failure : Option BuildError)
    (hpending : s.bank.rebuild.pending = true) :
    BankStep s.bank (s.stepRebuild failure).bank := by
  cases failure with
  | some e =>
    rw [stepRebuild_of_failure hpending]
    exact .quiet
  | none =>
    have hsame : (s.stepRebuild none).bank = s.bank.built := by
      rw [stepRebuild, AnalyserBank.build_none hpending]
      dsimp only
      split <;> rfl
    rw [hsame]
    exact .build hpending

theorem publishIfDue_bank (s : AnalysisRun Settings Hop) (now : UInt32) (plan : RoutingPlan) :
    BankStep s.bank (s.publishIfDue now plan).bank := by
  simp only [publishIfDue]
  split
  · exact .quiet
  · split
    · exact .quiet
    · rename_i hfresh
      refine .publish _ fun read hread => AnalyserRebuild.isFresh_eq_true_iff.mpr ?_
      exact Nat.lt_of_lt_of_le (snapshotReads_lt hread) (Nat.not_lt.mp hfresh)

theorem tickWith_bank {a : AnalysisAct Hop}
    (h : s.tickWith a = some t) : BankStep s.bank t.bank := by
  simp only [tickWith] at h
  split at h
  · split at h
    · rename_i hpending
      cases h
      exact stepRebuild_bank _ hpending
    · cases h
  · cases h
    exact .quiet
  · cases h
    exact .quiet
  · cases h
    exact .quiet
  · cases h
    exact .quiet
  · cases h
    exact .feed _ _
  · cases h
    exact .quiet
  · cases h
    exact publishIfDue_bank _ _ _
  all_goals first
    | cases h; done
    | cases h; exact .quiet

end AnalysisRun

/-- Every step of the machine is a step of the bank. -/
theorem analysisStep_bank {s t : AnalysisRun Settings Hop} {a : AnalysisAct Hop}
    (h : analysisStep s a = some t) : BankStep s.bank t.bank := by
  cases a with
  | prepare | bumpEpoch | applyReferenceDelay | requestApply =>
    simp only [analysisStep] at h
    split at h <;> cases h
    exact .quiet
  | step => exact AnalysisRun.tick_bank h
  | _ => exact AnalysisRun.tickWith_bank h

end RtaTool
