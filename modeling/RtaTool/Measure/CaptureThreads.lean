import RtaTool.Lib.Machine
import RtaTool.Measure.RoutingPlan

/-!
# The capture bus under its threads

`RtaTool.Platform.CaptureBus` reads each member function as if nothing else ran. Here they are cut
at their accesses to what threads share, and interleaved: the audio thread runs `pushFromCallback`,
the device thread `prepare`, the message thread sets roles, transfer functions and the active flag,
and the consumer, which is the analysis thread, runs `serviceResyncAsConsumer` and then `drain`, one
tick after another. Memory is sequentially consistent. A step is one access, with the rings' own
operations taken whole: a ring has one writer and one reader, so a write or a discard has a single
moment at which it takes effect. Counters that no step reads ride on the step before them.

`prepare` runs with the callback quiesced. That is a promise of the device layer and the only one:
`prepare` begins when no block is in flight, and no block begins until it has returned.

A sample is the number of its frame in the stream the device delivers, so a ring shows which frames
it holds. Null rings inside the hop loop, which a `prepare` for fewer channels would make of a
pointer already checked, are read as if they were not null.

Three fields of `CaptureRun` are bookkeeping that no step reads: the blocks that went to the rings
and how much of each ring the consumer has discarded, both since the last time a resync left every
ring empty and no block in flight, and whether a block has been accepted since the last resync that
did not time out.

## Main definitions

* `CallbackPc`, `DevicePc`, `ServicePc`, `DrainPc` -- where each thread stands
* `callbackStep`, `deviceStep`, `serviceStep`, `drainStep` -- one access of each
* `CaptureRun`, `CaptureAct`, `captureRuns` -- the machine
-/

namespace RtaTool

/-! ### Where the threads stand -/

/-- A block of the device: its frames, the channels it was delivered for, and whether there is a
pointer at all and which of the channels' pointers are set. -/
structure FrameBlock where
  frames : List ℕ
  numChannels : ℤ
  numSamples : ℤ
  present : Option (List Bool)

/-- What the block has for a channel. -/
def FrameBlock.data (f : FrameBlock) (ch : ℕ) : Option (List ℕ) :=
  if (f.present.getD []).getD ch false then some f.frames else none

/-- The audio thread inside `pushFromCallback`. From `snapshotting` on it has passed the gate. -/
inductive CallbackPc
  | idle
  | entered (f : FrameBlock)
  | activeSeen (f : FrameBlock)
  | gateSeen (f : FrameBlock)
  | gateCounted (f : FrameBlock)
  | snapshotting (f : FrameBlock) (roles : List ChannelRole)
  | writing (f : FrameBlock) (roles : List ChannelRole) (limit ch : ℕ) (taken : List ℕ)

/-- A block that passed the gate and has not returned. -/
def CallbackPc.Inside : CallbackPc → Prop
  | .snapshotting _ _ | .writing _ _ _ _ _ => True
  | _ => False

/-- No block in flight. -/
def CallbackPc.isIdle : CallbackPc → Bool
  | .idle => true
  | _ => false

instance : DecidablePred CallbackPc.Inside
  | .snapshotting _ _ | .writing _ _ _ _ _ => isTrue trivial
  | .idle | .entered _ | .activeSeen _ | .gateSeen _ | .gateCounted _ => isFalse id

/-- A thread inside `raiseGate`. -/
inductive RaisePc
  | loadSeen
  | storeMark (seen : ℕ)
  | storePending

/-- The device thread inside `prepare`. -/
inductive DevicePc
  | idle
  | relabelled
  | raising (pc : RaisePc)
  | bumping

/-- No `prepare` under way. -/
def DevicePc.isIdle : DevicePc → Bool
  | .idle => true
  | _ => false

theorem CallbackPc.isIdle_iff {pc : CallbackPc} : pc.isIdle = true ↔ pc = .idle := by
  cases pc <;> simp [isIdle]

theorem DevicePc.isIdle_iff {pc : DevicePc} : pc.isIdle = true ↔ pc = .idle := by
  cases pc <;> simp [isIdle]

/-- The consumer inside `serviceResyncAsConsumer`. -/
inductive ServicePc
  | scanning (ch : ℕ) (mask : UInt64)
  | raising (pc : RaisePc)
  | gateCheck
  | readClock
  | loadSeen (timedOut : Bool)
  | loadMark (timedOut : Bool) (seen : ℕ)
  | loadActive (timedOut acknowledged : Bool)
  | sampling (timedOut : Bool) (largest ch : ℕ)
  | discarding (timedOut : Bool) (largest ch count : ℕ)
  | lowering (timedOut : Bool) (largest : ℕ)

/-- The consumer inside `planRouting`: the load it makes next. -/
inductive PlanPc
  | role (m : ℕ)
  | transfer (m : ℕ)
  | referenceRole (m tf r : ℕ)
  | referenceTransfer (m tf r : ℕ)

/-- One call of `drainPaired`, and the references after it. -/
structure DrainGroup where
  plan : RoutingPlan
  ref : ℕ
  refs : List ℕ

/-- The routes of the group, with their positions in the plan. -/
def DrainGroup.routes (g : DrainGroup) : List (TransferRoute × ℕ) :=
  g.plan.routes.zipIdx.filter fun route => route.1.referenceChannel = g.ref

/-- The consumer inside `drain`. -/
inductive DrainPc
  | gateCheck
  | counting
  | planning (count : ℕ) (plan : RoutingPlan) (pc : PlanPc)
  | searching (role : ChannelRole) (ch : ℕ)
  | roleRing (role : ChannelRole) (ch : ℕ)
  | roleSampling (role : ChannelRole) (ch : ℕ)
  | rolePeeking (role : ChannelRole) (ch hops : ℕ)
  | roleDiscarding (role : ChannelRole) (ch hops : ℕ)
  | groups (plan : RoutingPlan) (refs : List ℕ)
  | refRing (g : DrainGroup)
  | refSampling (g : DrainGroup)
  | routeRing (g : DrainGroup) (todo : List (TransferRoute × ℕ)) (available : List ℕ)
  | routeSampling (g : DrainGroup) (route : TransferRoute) (todo : List (TransferRoute × ℕ))
      (available : List ℕ)
  | hopCount (g : DrainGroup) (available : List ℕ)
  | refPeeking (g : DrainGroup) (hops : ℕ)
  | routePeeking (g : DrainGroup) (hops : ℕ) (todo : List (TransferRoute × ℕ))
  | refDiscarding (g : DrainGroup) (hops : ℕ)
  | routeDiscarding (g : DrainGroup) (hops : ℕ) (todo : List (TransferRoute × ℕ))
  | pushing (g : DrainGroup) (hops : ℕ) (route : TransferRoute) (todo : List (TransferRoute × ℕ))

/-- The consumer: waiting for its next tick, or inside one of the two. -/
inductive ConsumerPc
  | waiting
  | service (pc : ServicePc)
  | drain (pc : DrainPc)

/-! ### The state -/

/-- A block that went to the rings, and the channels whose rings took it. -/
structure TakenBlock where
  frames : List ℕ
  takenBy : List ℕ

/-- The bus, where its threads stand, and the analysis thread's scratch for each channel. -/
structure CaptureRun where
  bus : CaptureBus ℕ
  cb : CallbackPc
  dev : DevicePc
  con : ConsumerPc
  scratch : ℕ → List ℕ
  nextFrame : ℕ
  blocks : List TakenBlock
  consumed : ℕ → ℕ
  afterResync : Bool

namespace CaptureRun

/-- A consumer has just attached itself to the bus. -/
def start (b : CaptureBus ℕ) : CaptureRun where
  bus := b.attachConsumer
  cb := .idle
  dev := .idle
  con := .waiting
  scratch := fun _ => []
  nextFrame := 0
  blocks := []
  consumed := fun _ => 0
  afterResync := false

/-- Every ring is empty. -/
def RingsEmpty (s : CaptureRun) : Prop := ∀ ch < kMaxChannels, (s.bus.rings ch).items = []

instance (s : CaptureRun) : Decidable s.RingsEmpty :=
  inferInstanceAs (Decidable (∀ ch < kMaxChannels, _))

/-! ### The audio thread -/

/-- The next block of the device. -/
def nextBlock (s : CaptureRun) (present : Option (List Bool)) (numChannels numSamples : ℤ) :
    FrameBlock :=
  ⟨List.range' s.nextFrame numSamples.toNat, numChannels, numSamples, present⟩

/-- The device delivers a block. -/
def enter (s : CaptureRun) (present : Option (List Bool)) (numChannels numSamples : ℤ) :
    CaptureRun :=
  { s with
    cb := .entered (s.nextBlock present numChannels numSamples)
    nextFrame := s.nextFrame + numSamples.toNat }

/-- One access of `pushFromCallback`. -/
def callbackStep (s : CaptureRun) : Option CaptureRun :=
  match s.cb with
  | .idle => none
  | .entered f =>
    if !s.bus.active then some { s with cb := .idle }
    else if f.present = none ∨ f.numChannels ≤ 0 ∨ f.numSamples ≤ 0 then some { s with cb := .idle }
    else some { s with cb := .activeSeen f }
  | .activeSeen f =>
    if s.bus.resyncPending then some { s with cb := .gateSeen f }
    else some { s with cb := .snapshotting f [], afterResync := false }
  | .gateSeen f => some { s with bus := s.bus.noteGateSeen, cb := .gateCounted f }
  | .gateCounted f => some { s with bus := s.bus.noteRefused f.numSamples, cb := .idle }
  | .snapshotting f roles =>
    if roles.length < min f.numChannels.toNat kMaxChannels then
      some { s with cb := .snapshotting f (roles ++ [s.bus.config.roles roles.length]) }
    else some { s with cb := .writing f roles (s.bus.writeLimit f.numChannels) 0 [] }
  | .writing f roles limit ch taken =>
    if ch < limit then
      let src := CaptureBus.routedTo (roles.getD · .unused) f.data ch
      some
        { s with
          bus := s.bus.writeRing src ch
          cb := .writing f roles limit (ch + 1)
            (if s.bus.takes src ch then ch :: taken else taken) }
    else some { s with cb := .idle, blocks := s.blocks ++ [⟨f.frames, taken⟩] }

/-! ### The device thread -/

/-- One access of `raiseGate`, and where it leaves the thread. -/
def raiseStep (b : CaptureBus ℕ) : RaisePc → CaptureBus ℕ × Option RaisePc
  | .loadSeen => (b, some (.storeMark b.gateSeen))
  | .storeMark seen => (b.markGate seen, some .storePending)
  | .storePending => ({ b with resyncPending := true }, none)

/-- One access of `prepare`, after its first stores. -/
def deviceStep (s : CaptureRun) : Option CaptureRun :=
  match s.dev with
  | .idle => none
  | .relabelled =>
    some { s with dev := if s.bus.consumerAttached then .raising .loadSeen else .bumping }
  | .raising pc =>
    let r := raiseStep s.bus pc
    some { s with bus := r.1, dev := (r.2.map .raising).getD .bumping }
  | .bumping => some { s with bus := { s.bus with epoch := s.bus.epoch + 1 }, dev := .idle }

/-! ### The consumer's resync -/

/-- The consumer discards from a ring. -/
def discard (s : CaptureRun) (ch count : ℕ) : CaptureRun :=
  { s with
    bus := s.bus.discardRing ch count
    consumed := Function.update s.consumed ch
      (s.consumed ch + ((s.bus.rings ch).discard count).1) }

/-- The consumer lowers the gate. If every ring is empty and no block is in flight, what happened
before is over. -/
def lowerGate (s : CaptureRun) (timedOut : Bool) (largest : ℕ) : CaptureRun :=
  { s with
    bus := { s.bus.noteDrained largest with resyncPending := false }
    con := .drain .gateCheck
    blocks := if s.RingsEmpty ∧ ¬ s.cb.Inside then [] else s.blocks
    consumed := if s.RingsEmpty ∧ ¬ s.cb.Inside then fun _ => 0 else s.consumed
    afterResync := !timedOut }

/-- One access of `serviceResyncAsConsumer`; `now` is what the clock shows if it is read. -/
def serviceStep (s : CaptureRun) (now : ℕ) : ServicePc → CaptureRun
  | .scanning ch mask =>
    if ch < kMaxChannels then
      { s with con := .service (.scanning (ch + 1) (s.bus.addWriter mask ch)) }
    else if mask ≠ s.bus.consumerWriterMask then
      { s with
        bus := { s.bus with consumerWriterMask := mask }
        con := .service (.raising .loadSeen) }
    else { s with con := .service .gateCheck }
  | .raising pc =>
    let r := raiseStep s.bus pc
    { s with bus := r.1, con := .service ((r.2.map .raising).getD .gateCheck) }
  | .gateCheck =>
    if s.bus.resyncPending then { s with con := .service .readClock }
    else { s with bus := { s.bus with consumerWaiting := false }, con := .drain .gateCheck }
  | .readClock =>
    { s with
      bus := s.bus.noteWaiting now
      con := .service (.loadSeen ((s.bus.noteWaiting now).ackTimedOut now)) }
  | .loadSeen timedOut => { s with con := .service (.loadMark timedOut s.bus.gateSeen) }
  | .loadMark timedOut seen =>
    { s with con := .service (.loadActive timedOut (decide (seen ≠ s.bus.gateSeenAtRaise))) }
  | .loadActive timedOut acknowledged =>
    let idle := !s.bus.active
    if !acknowledged && !idle && !timedOut then { s with con := .drain .gateCheck }
    else if timedOut && !acknowledged && !idle then
      { s with bus := s.bus.countTimeout, con := .service (.sampling true 0 0) }
    else { s with con := .service (.sampling false 0 0) }
  | .sampling timedOut largest ch =>
    if ch < kMaxChannels then
      { s with con := .service (.discarding timedOut largest ch (s.bus.availableToRead ch)) }
    else { s with con := .service (.lowering timedOut largest) }
  | .discarding timedOut largest ch count =>
    { s.discard ch count with
      con := .service
        (.sampling timedOut (max largest ((s.bus.rings ch).discard count).1) (ch + 1)) }
  | .lowering timedOut largest => s.lowerGate timedOut largest

/-! ### The consumer's drain -/

/-- Where the search of `planRouting` goes for measurement channel `m`, or what follows the plan:
without a route the two roles are drained apart. -/
def planNext (count : ℕ) (plan : RoutingPlan) (m : ℕ) : DrainPc :=
  if m < count then .planning count plan (.role m)
  else if plan.routes = [] then .searching .measurement 0
  else .groups plan.sorted plan.sorted.distinctReferences

/-- Where the inner loop of `planRouting` goes. -/
def planReferenceNext (count : ℕ) (plan : RoutingPlan) (m tf r : ℕ) : DrainPc :=
  if r < count then .planning count plan (.referenceRole m tf r)
  else planNext count (plan.addUnrouted m) (m + 1)

/-- One load of `planRouting`. -/
def planStep (config : ChannelConfig) (count : ℕ) (plan : RoutingPlan) : PlanPc → DrainPc
  | .role m =>
    if config.roles m ≠ .measurement then planNext count plan (m + 1)
    else .planning count plan (.transfer m)
  | .transfer m => planReferenceNext count plan m (config.tfIndex m) 0
  | .referenceRole m tf r =>
    if config.roles r = .reference then .planning count plan (.referenceTransfer m tf r)
    else planReferenceNext count plan m tf (r + 1)
  | .referenceTransfer m tf r =>
    if config.tfIndex r = tf then planNext count (plan.addRoute ⟨tf, r, m⟩) (m + 1)
    else planReferenceNext count plan m tf (r + 1)

/-- After `drainRole` for one role comes the other, and then the tick is over. -/
def roleNext : ChannelRole → ConsumerPc
  | .measurement => .drain (.searching .reference 0)
  | _ => .waiting

/-- What follows the peeks of a hop: the next route's, or the discards. -/
def peekNext (g : DrainGroup) (hops : ℕ) : List (TransferRoute × ℕ) → DrainPc
  | [] => .refDiscarding g hops
  | todo => .routePeeking g hops todo

/-- What follows a route's discard: a push, unless the route is past the last engine. -/
def discardNext (g : DrainGroup) (hops : ℕ) (route : TransferRoute × ℕ)
    (todo : List (TransferRoute × ℕ)) : DrainPc :=
  if kMaxTransferFunctions ≤ route.2 then .routeDiscarding g hops todo
  else .pushing g hops route.1 todo

/-- The analysis thread peeks a hop into a channel's scratch. -/
def peekInto (s : CaptureRun) (ch hop : ℕ) : CaptureRun :=
  { s with scratch := Function.update s.scratch ch ((s.bus.rings ch).peek hop) }

/-- One access of `drain`, with hops of `hop` samples. -/
def drainStep (hop : ℕ) (s : CaptureRun) : DrainPc → CaptureRun
  | .gateCheck =>
    if s.bus.resyncPending then { s with con := .waiting } else { s with con := .drain .counting }
  | .counting => { s with con := .drain (planNext (min s.bus.preparedChannels kMaxChannels) {} 0) }
  | .planning count plan pc => { s with con := .drain (planStep s.bus.config count plan pc) }
  -- `drainRole`
  | .searching role ch =>
    if ch < kMaxChannels then
      if s.bus.config.roles ch = role then { s with con := .drain (.roleRing role ch) }
      else { s with con := .drain (.searching role (ch + 1)) }
    else { s with con := roleNext role }
  | .roleRing role ch =>
    if ch < s.bus.preparedChannels ∧ hop ≠ 0 then { s with con := .drain (.roleSampling role ch) }
    else { s with con := roleNext role }
  | .roleSampling role ch =>
    { s with con := .drain (.rolePeeking role ch (s.bus.availableToRead ch / hop)) }
  | .rolePeeking role ch hops =>
    match hops with
    | 0 => { s with con := roleNext role }
    | hops + 1 =>
      if ((s.bus.rings ch).peek hop).length ≠ hop then
        { s.peekInto ch hop with con := roleNext role }
      else { s.peekInto ch hop with con := .drain (.roleDiscarding role ch hops) }
  | .roleDiscarding role ch hops =>
    { s.discard ch hop with con := .drain (.rolePeeking role ch hops) }
  -- `drainPaired`, for one reference after another
  | .groups plan refs =>
    match refs with
    | [] => { s with con := .waiting }
    | ref :: refs => { s with con := .drain (.refRing ⟨plan, ref, refs⟩) }
  | .refRing g =>
    if g.ref < s.bus.preparedChannels ∧ hop ≠ 0 then { s with con := .drain (.refSampling g) }
    else { s with con := .drain (.groups g.plan g.refs) }
  | .refSampling g =>
    { s with con := .drain (.routeRing g g.routes [s.bus.availableToRead g.ref]) }
  | .routeRing g todo available =>
    match todo with
    | [] => { s with con := .drain (.hopCount g available) }
    | route :: todo =>
      if route.1.measurementChannel < s.bus.preparedChannels then
        { s with con := .drain (.routeSampling g route.1 todo available) }
      else { s with con := .drain (.routeRing g todo (available ++ [0])) }
  | .routeSampling g route todo available =>
    { s with
      con := .drain
        (.routeRing g todo (available ++ [s.bus.availableToRead route.measurementChannel])) }
  | .hopCount g available => { s with con := .drain (.refPeeking g (pairedHopCount available hop)) }
  | .refPeeking g hops =>
    match hops with
    | 0 => { s with con := .drain (.groups g.plan g.refs) }
    | hops + 1 =>
      if ((s.bus.rings g.ref).peek hop).length ≠ hop then
        { s.peekInto g.ref hop with con := .drain (.groups g.plan g.refs) }
      else { s.peekInto g.ref hop with con := .drain (peekNext g hops g.routes) }
  | .routePeeking g hops todo =>
    match todo with
    | [] => { s with con := .drain (.refDiscarding g hops) }
    | route :: todo =>
      if ((s.bus.rings route.1.measurementChannel).peek hop).length ≠ hop then
        { s.peekInto route.1.measurementChannel hop with con := .drain (.groups g.plan g.refs) }
      else { s.peekInto route.1.measurementChannel hop with con := .drain (peekNext g hops todo) }
  | .refDiscarding g hops =>
    { s.discard g.ref hop with con := .drain (.routeDiscarding g hops g.routes) }
  | .routeDiscarding g hops todo =>
    match todo with
    | [] => { s with con := .drain (.refPeeking g hops) }
    | route :: todo =>
      { s.discard route.1.measurementChannel hop with
        con := .drain (discardNext g hops route todo) }
  | .pushing g hops _ todo => { s with con := .drain (.routeDiscarding g hops todo) }

/-! ### The steps as relations -/

/-- What one access of the audio thread can be. -/
inductive CallbackStep (s : CaptureRun) : CaptureRun → Prop
  | leave (f) (h : s.cb = .entered f) : CallbackStep s { s with cb := .idle }
  | see (f) (h : s.cb = .entered f) : CallbackStep s { s with cb := .activeSeen f }
  | closed (f) (h : s.cb = .activeSeen f) (hpending : s.bus.resyncPending = true) :
      CallbackStep s { s with cb := .gateSeen f }
  | pass (f) (h : s.cb = .activeSeen f) (hpending : s.bus.resyncPending = false) :
      CallbackStep s { s with cb := .snapshotting f [], afterResync := false }
  | count (f) (h : s.cb = .gateSeen f) :
      CallbackStep s { s with bus := s.bus.noteGateSeen, cb := .gateCounted f }
  | refuse (f) (h : s.cb = .gateCounted f) :
      CallbackStep s { s with bus := s.bus.noteRefused f.numSamples, cb := .idle }
  | snapshot (f roles role) (h : s.cb = .snapshotting f roles) :
      CallbackStep s { s with cb := .snapshotting f (roles ++ [role]) }
  | limit (f roles n) (h : s.cb = .snapshotting f roles) :
      CallbackStep s { s with cb := .writing f roles n 0 [] }
  | write (f roles n ch taken src) (h : s.cb = .writing f roles n ch taken)
      (hsrc : src = none ∨ src = some f.frames) :
      CallbackStep s
        { s with
          bus := s.bus.writeRing src ch
          cb := .writing f roles n (ch + 1) (if s.bus.takes src ch then ch :: taken else taken) }
  | finish (f roles n ch taken) (h : s.cb = .writing f roles n ch taken) :
      CallbackStep s { s with cb := .idle, blocks := s.blocks ++ [⟨f.frames, taken⟩] }

theorem routedTo_data (roles : ℕ → ChannelRole) (f : FrameBlock) (ch : ℕ) :
    CaptureBus.routedTo roles f.data ch = none ∨
      CaptureBus.routedTo roles f.data ch = some f.frames := by
  rw [CaptureBus.routedTo, FrameBlock.data]
  split
  · exact .inl rfl
  · split
    · exact .inr rfl
    · exact .inl rfl

theorem callbackStep_cases {s t : CaptureRun} (h : s.callbackStep = some t) :
    CallbackStep s t := by
  rw [callbackStep.eq_def] at h
  split at h
  case h_1 => cases h
  case h_2 f hcb =>
    split at h
    · cases h
      exact .leave f hcb
    · split at h <;> cases h
      · exact .leave f hcb
      · exact .see f hcb
  case h_3 f hcb =>
    cases hpending : s.bus.resyncPending <;> rw [hpending] at h <;> cases h
    · exact .pass f hcb hpending
    · exact .closed f hcb hpending
  case h_4 f hcb =>
    cases h
    exact .count f hcb
  case h_5 f hcb =>
    cases h
    exact .refuse f hcb
  case h_6 f roles hcb =>
    split at h <;> cases h
    · exact .snapshot f roles _ hcb
    · exact .limit f roles _ hcb
  case h_7 f roles limit ch taken hcb =>
    split at h <;> cases h
    · exact .write f roles limit ch taken _ hcb (routedTo_data _ _ _)
    · exact .finish f roles limit ch taken hcb

/-- What one access of the device thread can be. -/
inductive DeviceStep (s : CaptureRun) : CaptureRun → Prop
  | look (dev) (h : s.dev = .relabelled) (hdev : dev = .raising .loadSeen ∨ dev = .bumping) :
      DeviceStep s { s with dev := dev }
  | loadSeen (h : s.dev = .raising .loadSeen) :
      DeviceStep s { s with dev := .raising (.storeMark s.bus.gateSeen) }
  | storeMark (seen) (h : s.dev = .raising (.storeMark seen)) :
      DeviceStep s { s with bus := s.bus.markGate seen, dev := .raising .storePending }
  | storePending (h : s.dev = .raising .storePending) :
      DeviceStep s { s with bus := { s.bus with resyncPending := true }, dev := .bumping }
  | bump (h : s.dev = .bumping) :
      DeviceStep s { s with bus := { s.bus with epoch := s.bus.epoch + 1 }, dev := .idle }

theorem deviceStep_cases {s t : CaptureRun} (h : s.deviceStep = some t) : DeviceStep s t := by
  rw [deviceStep.eq_def] at h
  split at h
  case h_1 => cases h
  case h_2 hdev =>
    cases h
    refine .look _ hdev ?_
    split
    · exact .inl rfl
    · exact .inr rfl
  case h_3 pc hdev =>
    cases h
    cases pc with
    | loadSeen => exact .loadSeen hdev
    | storeMark seen => exact .storeMark seen hdev
    | storePending => exact .storePending hdev
  case h_4 hdev =>
    cases h
    exact .bump hdev

theorem drainStep_eq (hop : ℕ) (s : CaptureRun) (pc : DrainPc) :
    ∃ u, (u = s ∨ ∃ ch count, u = s.discard ch count) ∧
      s.drainStep hop pc =
        { u with con := (s.drainStep hop pc).con, scratch := (s.drainStep hop pc).scratch } := by
  have hstay : ∀ con scratch, ∃ u, (u = s ∨ ∃ ch count, u = s.discard ch count) ∧
      { s with con := con, scratch := scratch } = { u with con := con, scratch := scratch } :=
    fun _ _ => ⟨s, .inl rfl, rfl⟩
  cases pc with
  | roleDiscarding role ch hops => exact ⟨_, .inr ⟨ch, hop, rfl⟩, rfl⟩
  | refDiscarding g hops => exact ⟨_, .inr ⟨g.ref, hop, rfl⟩, rfl⟩
  | routeDiscarding g hops todo =>
    cases todo with
    | nil => exact hstay _ _
    | cons route todo => exact ⟨_, .inr ⟨route.1.measurementChannel, hop, rfl⟩, rfl⟩
  | gateCheck | searching | roleRing | refRing =>
    simp only [drainStep]
    (repeat' split) <;> exact hstay _ _
  | rolePeeking role ch hops =>
    cases hops with
    | zero => exact hstay _ _
    | succ hops =>
      simp only [drainStep]
      split <;> exact hstay _ _
  | groups plan refs => cases refs <;> exact hstay _ _
  | routeRing g todo available =>
    cases todo with
    | nil => exact hstay _ _
    | cons route todo =>
      simp only [drainStep]
      split <;> exact hstay _ _
  | refPeeking g hops =>
    cases hops with
    | zero => exact hstay _ _
    | succ hops =>
      simp only [drainStep]
      split <;> exact hstay _ _
  | routePeeking g hops todo =>
    cases todo with
    | nil => exact hstay _ _
    | cons route todo =>
      simp only [drainStep]
      split <;> exact hstay _ _
  | counting | planning | roleSampling | refSampling | routeSampling | hopCount | pushing =>
    exact hstay _ _

theorem drainStep_con (hop : ℕ) (s : CaptureRun) (pc : DrainPc) (pc' : ServicePc) :
    (s.drainStep hop pc).con ≠ .service pc' := by
  have hrole : ∀ role, roleNext role ≠ .service pc' := by
    intro role
    cases role <;> nofun
  have hdrain : ∀ pc, ConsumerPc.drain pc ≠ .service pc' := nofun
  have hwaiting : ConsumerPc.waiting ≠ .service pc' := nofun
  rw [drainStep.eq_def]
  (repeat' split) <;> first
    | exact hdrain _
    | exact hrole _
    | exact hwaiting

end CaptureRun

/-! ### The machine -/

/-- What can happen next. `callback`, `device` and `consumer` are the next access of a call under
way. -/
inductive CaptureAct
  | enter (present : Option (List Bool)) (numChannels numSamples : ℤ)
  | callback
  | prepare (sampleRate : ℚ) (numChannels : ℤ)
  | device
  | setActive (active : Bool)
  | setRole (channel : ℤ) (role : ChannelRole)
  | setTransferFunction (channel tf : ℤ)
  | tick
  | consumer (now : ℕ)

/-- A step of the consumer. -/
def CaptureAct.isConsumer : CaptureAct → Bool
  | .consumer _ => true
  | _ => false

/-- The bus under its threads, from the moment its consumer has attached itself, with hops of `hop`
samples. -/
def captureRuns (hop : ℕ) : Machine CaptureRun CaptureAct where
  init s := ∃ b : CaptureBus ℕ,
    (∀ ch, (b.rings ch).items = []) ∧ b.resyncPending = false ∧ s = .start b
  step s
    | .enter present numChannels numSamples =>
      if s.cb.isIdle && s.dev.isIdle then some (s.enter present numChannels numSamples) else none
    | .callback => s.callbackStep
    | .prepare sampleRate numChannels =>
      if s.cb.isIdle && s.dev.isIdle then
        some { s with bus := s.bus.relabel sampleRate numChannels, dev := .relabelled }
      else none
    | .device => s.deviceStep
    | .setActive active => some { s with bus := s.bus.setActive active }
    | .setRole channel role => some { s with bus := s.bus.setRole channel role }
    | .setTransferFunction channel tf =>
      some { s with bus := s.bus.setTransferFunction channel tf }
    | .tick =>
      match s.con with
      | .waiting => some { s with con := .service (.scanning 0 0) }
      | _ => none
    | .consumer now =>
      match s.con with
      | .waiting => none
      | .service pc => some (s.serviceStep now pc)
      | .drain pc => some (s.drainStep hop pc)

/-! ### A bus with two channels -/

/-- A measurement channel and its reference, on a device that is running. -/
def twoChannels (ringCapacity : ℕ) : CaptureBus ℕ :=
  { (CaptureBus.make ringCapacity : CaptureBus ℕ) with
    config := (({} : ChannelConfig).setRole 0 .measurement).setRole 1 .reference
    active := true
    sampleRate := 48000
    preparedChannels := 2 }

theorem captureRuns_init_twoChannels (hop ringCapacity : ℕ) :
    (captureRuns hop).init (.start (twoChannels ringCapacity)) := ⟨_, fun _ => rfl, rfl, rfl⟩

end RtaTool
