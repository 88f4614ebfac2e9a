import RtaTool.Lib.Machine
import RtaTool.Platform.OutputEngine

/-!
# The output engine under its three threads

`RtaTool.Platform.OutputEngine` reads each member function as if nothing else ran. Here the same
functions are cut at their atomic accesses and interleaved: the message thread builds and installs
sources and moves the arm flag and the routes, the device thread runs `prepare`, the audio thread
runs `render`. Memory is sequentially consistent, and a step of one thread is one access to a
shared word, with two exceptions that are the block structure of `render` itself: the decision at
the head of a block, and one chunk.

The device thread runs `prepare` with the callback quiesced. That is a promise of the device layer
(`AudioIo::audioDeviceAboutToStart` runs before the callback is inserted), and it is the only
promise here: `prepareBegin` is enabled when no block is in flight, and no block begins until
`prepare` has returned.

A source is built for the rate the message thread *read*, which is why reading and building are
steps of their own. The build function is a parameter, so the same machine serves questions about
the slot (any source at all) and questions about the rate.

## Main definitions

* `MsgPc`, `DevPc`, `CbPc` -- where each thread stands
* `messageStep`, `deviceStep`, `callbackStep` -- one access of each thread
* `engineThreads` -- the machine
* `MessageStep`, `DeviceStep`, `CallbackStep` -- the same steps as relations, for case analysis

## Main results

* `exec_setSource_alone`, `exec_prepare_alone`, `exec_render_alone` -- a call that is not
  interrupted is the sequential call of `RtaTool.Platform.OutputEngine`
-/

namespace RtaTool

namespace OutputEngine

variable {Src Spec : Type}

/-- Where the message thread stands. Between `rateRead` and `stored` it is on its way from the
rate it built for to the epoch it will stamp. -/
inductive MsgPc (Src : Type)
  | idle
  | rateRead (rate : ℚ)
  | built (source : Option Src)
  | idleLoaded (source : Option Src)
  | quiescent (source : Option Src)
  | stored
  | epochLoaded (epoch : ℕ)
  | counterZeroed
  | roleStored (ch : ℤ) (active : Bool)

/-- Where the device thread stands inside `prepare`. -/
inductive DevPc
  | idle
  | bumped (rate : ℚ) (channels : ℤ)
  | disarmed (rate : ℚ) (channels : ℤ)
  | rateStored (rate : ℚ) (channels : ℤ)
  | channelsStored (rate : ℚ)
  | rampsPrepared

/-- Where the audio thread stands inside `render`. `rendering` is a block that decided to use the
source; `clearing` is the fast clear. -/
inductive CbPc
  | idle
  | rendering (channels : ℤ) (remaining : ℕ)
  | clearing

/-- The accesses of the message thread. -/
inductive MsgAct (Spec : Type)
  | readRate
  | build (spec : Spec)
  | loadPublishedIdle
  | loadArmed
  | storeSlot
  | loadOutputEpoch
  | storeSlotEpoch
  | zeroCounter
  | storeArmed
  | disarm
  | storeRole (ch : ℤ) (active : Bool)
  | requestGate
  deriving DecidableEq

/-- The accesses of the device thread, in the order `prepare` makes them. -/
inductive DevAct
  | bumpEpoch (rate : ℚ) (channels : ℤ)
  | clearArmed
  | storeRate
  | storeChannels
  | prepareRamps
  | publishIdle
  deriving DecidableEq

/-- The steps of the audio thread: the decision, one chunk, the final store. -/
inductive CbAct
  | decide (numOutputChannels numSamples : ℤ)
  | chunk
  | publish
  deriving DecidableEq

/-- One access of the message thread. `setSource` is `loadPublishedIdle` to `storeSlotEpoch`; the
two early exits are the two halves of its quiescence check. -/
def messageStep (build : Spec → ℚ → Option Src) (e : OutputEngine Src) :
    MsgPc Src → MsgAct Spec → Option (OutputEngine Src × MsgPc Src)
  | .idle, .readRate => some (e, .rateRead e.sampleRate)
  | .rateRead rate, .build spec => some (e, .built (build spec rate))
  | .built source, .loadPublishedIdle =>
    some (e, if e.publishedIdle then .idleLoaded source else .idle)
  | .idleLoaded source, .loadArmed => some (e, if e.armed then .idle else .quiescent source)
  | .quiescent source, .storeSlot => some ({ e with slot := source }, .stored)
  | .stored, .loadOutputEpoch => some (e, .epochLoaded e.outputEpoch)
  | .epochLoaded epoch, .storeSlotEpoch => some ({ e with slotEpoch := epoch }, .idle)
  | .idle, .zeroCounter => some ({ e with renderedSamples := 0 }, .counterZeroed)
  | .counterZeroed, .storeArmed => some ({ e with armed := true }, .idle)
  | .idle, .disarm => some (e.disarmSource, .idle)
  | .idle, .storeRole ch active =>
    if inRange ch then some (e.storeRole ch active, .roleStored ch active) else some (e, .idle)
  | .roleStored ch active, .requestGate => some (e.requestGate ch active, .idle)
  | _, _ => none

/-- One access of the device thread. `callbackIdle` says the callback is quiesced. -/
def deviceStep (e : OutputEngine Src) (callbackIdle : Bool) :
    DevPc → DevAct → Option (OutputEngine Src × DevPc)
  | .idle, .bumpEpoch rate channels =>
    if callbackIdle then
      some ({ e with outputEpoch := e.outputEpoch + 1 }, .bumped rate channels)
    else none
  | .bumped rate channels, .clearArmed => some (e.disarmSource, .disarmed rate channels)
  | .disarmed rate channels, .storeRate =>
    some ({ e with sampleRate := rate }, .rateStored rate channels)
  | .rateStored rate channels, .storeChannels =>
    some ({ e with preparedOutputChannels := channels }, .channelsStored rate)
  | .channelsStored rate, .prepareRamps =>
    some ({ e with master := e.master.prepare rate, outputGates := e.prepareGates rate },
      .rampsPrepared)
  | .rampsPrepared, .publishIdle => some ({ e with publishedIdle := true }, .idle)
  | _, _ => none

/-- One step of the audio thread. `deviceIdle` says the callback is inserted. -/
def callbackStep [AudioSource Src] (e : OutputEngine Src) (deviceIdle : Bool) :
    CbPc → CbAct → Option (OutputEngine Src × CbPc)
  | .idle, .decide numOutputChannels numSamples =>
    if deviceIdle then
      some (e.requestMaster,
        if e.needsRender then
          .rendering (clampChannels numOutputChannels) numSamples.toNat
        else .clearing)
    else none
  | .rendering channels remaining, .chunk =>
    if remaining = 0 then none
    else
      some (e.renderChunk channels (min remaining kScratchCapacity),
        .rendering channels (remaining - min remaining kScratchCapacity))
  | .rendering _ remaining, .publish => if remaining = 0 then some (e.publishIdle, .idle) else none
  | .clearing, .publish => some ({ e with publishedIdle := true }, .idle)
  | _, _ => none

/-- The engine and where its three threads stand. -/
structure Threads (Src : Type) where
  engine : OutputEngine Src
  msg : MsgPc Src
  dev : DevPc
  cb : CbPc

/-- An access of one of the three threads. -/
inductive ThreadAct (Spec : Type)
  | message (a : MsgAct Spec)
  | device (a : DevAct)
  | callback (a : CbAct)
  deriving DecidableEq

/-- Whether no block is in flight. -/
def CbPc.isIdle : CbPc → Bool
  | .idle => true
  | _ => false

/-- Whether no `prepare` is under way. -/
def DevPc.isIdle : DevPc → Bool
  | .idle => true
  | _ => false

/-- Whether a block that decided to use the source is in flight. -/
def CbPc.Using : CbPc → Prop
  | .rendering _ _ => True
  | _ => False

instance : DecidablePred CbPc.Using
  | .rendering _ _ => isTrue trivial
  | .idle => isFalse id
  | .clearing => isFalse id

/-- The engine under its three threads, from the constructor on. -/
def engineThreads [AudioSource Src] (build : Spec → ℚ → Option Src) :
    Machine (Threads Src) (ThreadAct Spec) where
  init s := s = ⟨make, .idle, .idle, .idle⟩
  step s
    | .message a => (messageStep build s.engine s.msg a).map fun r =>
        { s with engine := r.1, msg := r.2 }
    | .device a => (deviceStep s.engine s.cb.isIdle s.dev a).map fun r =>
        { s with engine := r.1, dev := r.2 }
    | .callback a => (callbackStep s.engine s.dev.isIdle s.cb a).map fun r =>
        { s with engine := r.1, cb := r.2 }

/-! ### The steps as relations -/

/-- What one access of the message thread can be. -/
inductive MessageStep (build : Spec → ℚ → Option Src) (e : OutputEngine Src) :
    MsgPc Src → MsgAct Spec → OutputEngine Src → MsgPc Src → Prop
  | readRate : MessageStep build e .idle .readRate e (.rateRead e.sampleRate)
  | build (rate spec) : MessageStep build e (.rateRead rate) (.build spec) e
      (.built (build spec rate))
  | idleTrue (source) (h : e.publishedIdle = true) :
      MessageStep build e (.built source) .loadPublishedIdle e (.idleLoaded source)
  | idleFalse (source) (h : e.publishedIdle = false) :
      MessageStep build e (.built source) .loadPublishedIdle e .idle
  | armedTrue (source) (h : e.armed = true) :
      MessageStep build e (.idleLoaded source) .loadArmed e .idle
  | armedFalse (source) (h : e.armed = false) :
      MessageStep build e (.idleLoaded source) .loadArmed e (.quiescent source)
  | storeSlot (source) :
      MessageStep build e (.quiescent source) .storeSlot { e with slot := source } .stored
  | loadOutputEpoch : MessageStep build e .stored .loadOutputEpoch e (.epochLoaded e.outputEpoch)
  | storeSlotEpoch (epoch) :
      MessageStep build e (.epochLoaded epoch) .storeSlotEpoch { e with slotEpoch := epoch } .idle
  | zeroCounter :
      MessageStep build e .idle .zeroCounter { e with renderedSamples := 0 } .counterZeroed
  | storeArmed : MessageStep build e .counterZeroed .storeArmed { e with armed := true } .idle
  | disarm : MessageStep build e .idle .disarm e.disarmSource .idle
  | storeRole (ch active) (h : inRange ch) :
      MessageStep build e .idle (.storeRole ch active) (e.storeRole ch active)
        (.roleStored ch active)
  | refuseRole (ch active) (h : ¬ inRange ch) :
      MessageStep build e .idle (.storeRole ch active) e .idle
  | requestGate (ch active) :
      MessageStep build e (.roleStored ch active) .requestGate (e.requestGate ch active) .idle

variable {e e' : OutputEngine Src} {build : Spec → ℚ → Option Src}

theorem messageStep_cases
    {pc pc' : MsgPc Src} {a : MsgAct Spec} (h : messageStep build e pc a = some (e', pc')) :
    MessageStep build e pc a e' pc' := by
  rw [messageStep.eq_def] at h
  split at h
  case h_3 source =>
    cases hp : e.publishedIdle <;> simp only [hp] at h <;> cases h
    · exact .idleFalse source hp
    · exact .idleTrue source hp
  case h_4 source =>
    cases ha : e.armed <;> simp only [ha] at h <;> cases h
    · exact .armedFalse source ha
    · exact .armedTrue source ha
  case h_11 ch active =>
    split at h <;> cases h
    · exact .storeRole ch active ‹_›
    · exact .refuseRole ch active ‹_›
  all_goals cases h
  all_goals constructor

/-- What one access of the device thread can be. -/
inductive DeviceStep (e : OutputEngine Src) (callbackIdle : Bool) :
    DevPc → DevAct → OutputEngine Src → DevPc → Prop
  | bumpEpoch (rate channels) (h : callbackIdle = true) :
      DeviceStep e callbackIdle .idle (.bumpEpoch rate channels)
        { e with outputEpoch := e.outputEpoch + 1 } (.bumped rate channels)
  | clearArmed (rate channels) :
      DeviceStep e callbackIdle (.bumped rate channels) .clearArmed e.disarmSource
        (.disarmed rate channels)
  | storeRate (rate channels) :
      DeviceStep e callbackIdle (.disarmed rate channels) .storeRate { e with sampleRate := rate }
        (.rateStored rate channels)
  | storeChannels (rate channels) :
      DeviceStep e callbackIdle (.rateStored rate channels) .storeChannels
        { e with preparedOutputChannels := channels } (.channelsStored rate)
  | prepareRamps (rate) :
      DeviceStep e callbackIdle (.channelsStored rate) .prepareRamps
        { e with master := e.master.prepare rate, outputGates := e.prepareGates rate }
        .rampsPrepared
  | publishIdle :
      DeviceStep e callbackIdle .rampsPrepared .publishIdle { e with publishedIdle := true } .idle

theorem deviceStep_cases {callbackIdle : Bool} {pc pc' : DevPc}
    {a : DevAct} (h : deviceStep e callbackIdle pc a = some (e', pc')) :
    DeviceStep e callbackIdle pc a e' pc' := by
  rw [deviceStep.eq_def] at h
  split at h
  case h_1 rate channels =>
    split at h <;> cases h
    exact .bumpEpoch rate channels ‹_›
  all_goals cases h
  all_goals constructor

/-- What one step of the audio thread can be. -/
inductive CallbackStep [AudioSource Src] (e : OutputEngine Src) (deviceIdle : Bool) :
    CbPc → CbAct → OutputEngine Src → CbPc → Prop
  | decideRender (numOutputChannels numSamples) (h : deviceIdle = true)
      (hn : e.needsRender = true) :
      CallbackStep e deviceIdle .idle (.decide numOutputChannels numSamples) e.requestMaster
        (.rendering (clampChannels numOutputChannels) numSamples.toNat)
  | decideClear (numOutputChannels numSamples) (h : deviceIdle = true)
      (hn : e.needsRender = false) :
      CallbackStep e deviceIdle .idle (.decide numOutputChannels numSamples) e.requestMaster
        .clearing
  | chunk (channels remaining) (h : remaining ≠ 0) :
      CallbackStep e deviceIdle (.rendering channels remaining) .chunk
        (e.renderChunk channels (min remaining kScratchCapacity))
        (.rendering channels (remaining - min remaining kScratchCapacity))
  | publishRender (channels) :
      CallbackStep e deviceIdle (.rendering channels 0) .publish e.publishIdle .idle
  | publishClear :
      CallbackStep e deviceIdle .clearing .publish { e with publishedIdle := true } .idle

theorem callbackStep_cases [AudioSource Src] {deviceIdle : Bool}
    {pc pc' : CbPc} {a : CbAct} (h : callbackStep e deviceIdle pc a = some (e', pc')) :
    CallbackStep e deviceIdle pc a e' pc' := by
  rw [callbackStep.eq_def] at h
  split at h
  case h_1 channels samples =>
    split at h
    · cases hn : e.needsRender <;> simp only [hn] at h <;> cases h
      · exact .decideClear channels samples ‹_› hn
      · exact .decideRender channels samples ‹_› hn
    · cases h
  case h_2 channels remaining =>
    split at h <;> cases h
    exact .chunk channels remaining ‹_›
  case h_3 channels remaining =>
    split at h <;> cases h
    subst remaining
    exact .publishRender channels
  case h_4 =>
    cases h
    exact .publishClear
  case h_5 => cases h

/-- **The one case analysis.** A step of the machine is a step of exactly one thread, and leaves
the other two where they were. Every invariant below is proved from this. -/
theorem engineThreads_step_cases [AudioSource Src] {s t : Threads Src} {act : ThreadAct Spec}
    (h : (engineThreads build).step s act = some t) :
    (∃ a, act = .message a ∧ MessageStep build s.engine s.msg a t.engine t.msg ∧
      t.dev = s.dev ∧ t.cb = s.cb) ∨
    (∃ a, act = .device a ∧ DeviceStep s.engine s.cb.isIdle s.dev a t.engine t.dev ∧
      t.msg = s.msg ∧ t.cb = s.cb) ∨
    (∃ a, act = .callback a ∧ CallbackStep s.engine s.dev.isIdle s.cb a t.engine t.cb ∧
      t.msg = s.msg ∧ t.dev = s.dev) := by
  cases act with
  | message a =>
    obtain ⟨⟨e', pc'⟩, hr, rfl⟩ := Option.map_eq_some_iff.mp h
    exact .inl ⟨a, rfl, messageStep_cases hr, rfl, rfl⟩
  | device a =>
    obtain ⟨⟨e', pc'⟩, hr, rfl⟩ := Option.map_eq_some_iff.mp h
    exact .inr (.inl ⟨a, rfl, deviceStep_cases hr, rfl, rfl⟩)
  | callback a =>
    obtain ⟨⟨e', pc'⟩, hr, rfl⟩ := Option.map_eq_some_iff.mp h
    exact .inr (.inr ⟨a, rfl, callbackStep_cases hr, rfl, rfl⟩)

/-! ### Calls that are not interrupted

The cuts above are only worth anything if nothing was lost in the cutting. Run without another
thread in between, the accesses of a call are the sequential call. -/

section Alone

variable [AudioSource Src] (build : Spec → ℚ → Option Src)

/-- The accesses `setSource` makes: the quiescence check is a short-circuit `&&`. -/
def setSourceActs (e : OutputEngine Src) : List (ThreadAct Spec) :=
  .message .loadPublishedIdle ::
    if !e.publishedIdle then []
    else .message .loadArmed ::
      if e.armed then []
      else [.message .storeSlot, .message .loadOutputEpoch, .message .storeSlotEpoch]

theorem exec_setSource_alone (e : OutputEngine Src) (source : Option Src) (dev : DevPc)
    (cb : CbPc) :
    (engineThreads build).exec ⟨e, .built source, dev, cb⟩ (setSourceActs e) =
      some ⟨(e.setSource source).2, .idle, dev, cb⟩ := by
  rw [setSource_eq]
  cases hp : e.publishedIdle with
  | false => simp [setSourceActs, engineThreads, messageStep, hp]
  | true =>
    cases ha : e.armed with
    | true => simp [setSourceActs, engineThreads, messageStep, hp, ha]
    | false => simp [setSourceActs, engineThreads, messageStep, hp, ha]

/-- The accesses of `prepare`. -/
def prepareActs (rate : ℚ) (channels : ℤ) : List (ThreadAct Spec) :=
  [.device (.bumpEpoch rate channels), .device .clearArmed, .device .storeRate,
    .device .storeChannels, .device .prepareRamps, .device .publishIdle]

theorem exec_prepare_alone (e : OutputEngine Src) (rate : ℚ) (channels : ℤ) (msg : MsgPc Src) :
    (engineThreads build).exec ⟨e, msg, .idle, .idle⟩ (prepareActs rate channels) =
      some ⟨e.prepare rate channels, msg, .idle, .idle⟩ := rfl

/-- The chunks of a block of `remaining` samples, with the loop's own fuel. -/
def chunkActs : ℕ → ℕ → List (ThreadAct Spec)
  | 0, _ => []
  | fuel + 1, remaining =>
    if remaining = 0 then []
    else .callback .chunk :: chunkActs fuel (remaining - min remaining kScratchCapacity)

theorem exec_chunkActs (channels : ℤ) (msg : MsgPc Src) (dev : DevPc) :
    ∀ (fuel remaining : ℕ) (e : OutputEngine Src), remaining ≤ fuel →
      (engineThreads build).exec ⟨e, msg, dev, .rendering channels remaining⟩
          (chunkActs fuel remaining) =
        some ⟨renderLoop channels fuel remaining e, msg, dev, .rendering channels 0⟩ := by
  intro fuel
  induction fuel with
  | zero =>
    intro remaining e h
    obtain rfl : remaining = 0 := by omega
    rfl
  | succ fuel ih =>
    intro remaining e h
    rw [chunkActs, renderLoop]
    by_cases hr : remaining = 0
    · simp [hr]
    · have hcap : 0 < kScratchCapacity := by decide
      simp only [hr, if_false, Machine.exec_cons]
      have hstep : (engineThreads build).step ⟨e, msg, dev, .rendering channels remaining⟩
          (.callback .chunk) =
          some ⟨e.renderChunk channels (min remaining kScratchCapacity), msg, dev,
            .rendering channels (remaining - min remaining kScratchCapacity)⟩ := by
        simp [engineThreads, callbackStep, hr]
      rw [hstep, Option.bind_some, ih _ _ (by omega)]

/-- The steps of a block. -/
def renderActs (e : OutputEngine Src) (numOutputChannels numSamples : ℤ) :
    List (ThreadAct Spec) :=
  .callback (.decide numOutputChannels numSamples) ::
    if e.needsRender then chunkActs numSamples.toNat numSamples.toNat ++ [.callback .publish]
    else [.callback .publish]

theorem exec_render_alone (e : OutputEngine Src) (numOutputChannels numSamples : ℤ)
    (msg : MsgPc Src) :
    (engineThreads build).exec ⟨e, msg, .idle, .idle⟩
        (renderActs e numOutputChannels numSamples) =
      some ⟨e.render true numOutputChannels numSamples, msg, .idle, .idle⟩ := by
  have hdecide : (engineThreads build).step ⟨e, msg, .idle, .idle⟩
      (.callback (.decide numOutputChannels numSamples)) =
      some ⟨e.requestMaster, msg, .idle,
        if e.needsRender then .rendering (clampChannels numOutputChannels) numSamples.toNat
        else .clearing⟩ := rfl
  rw [renderActs, Machine.exec_cons, hdecide, Option.bind_some, render]
  cases e.needsRender with
  | false => rfl
  | true =>
    simp only [if_true, Bool.not_true, Bool.false_eq_true, if_false]
    rw [Machine.exec_append, exec_chunkActs build _ _ _ _ _ _ le_rfl]
    rfl

end Alone

end OutputEngine

end RtaTool
