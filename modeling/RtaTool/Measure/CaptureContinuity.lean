import RtaTool.Measure.CaptureHops

/-!
# What goes into one capture

A capture is one stretch of its two channels if three things hold. At its first hop the two rings
hold the same frames, up to the last that was delivered; from then on no frame is kept from either
ring; and every drain finds the pair at the position it is accumulated of.

The second is what the resync sequence and the drop count can be asked about (`Unbroken`): a block
that a full ring refuses is counted, and a gate that goes up is counted too. A role that is taken
from a channel and given back before the analysis thread looks leaves no trace. Neither does a
route that moves to other channels which are in use as well.

## Main definitions

* `HoldsFrom`, `InStep`, `Unbroken` -- what the rings hold, and what the counters say
* `PathInv` -- what holds whoever is waiting
* `LiveInv` -- what holds of the accumulation that somebody is waiting for
* `PathKept` -- the condition on a step of the analysis thread

## Main results

* `LiveInv.analysis`, `LiveInv.push`, `LiveInv.quiet` -- the invariant along the steps
-/

namespace RtaTool

namespace CapturePath

/-! ### Rings and counters -/

/-- A channel's ring holds consecutive frames from `first` on, and all there have been since, as
long as it is written. -/
def HoldsFrom (p : CapturePath) (session : ℕ) (synthetic : Bool) (ch first : ℕ) : Prop :=
  (p.bus.rings ch).items = frameRun session synthetic ch first (p.bus.availableToRead ch) ∧
    first + p.bus.availableToRead ch ≤ p.nextFrame ∧
    (p.Written ch → first + p.bus.availableToRead ch = p.nextFrame)

instance (p : CapturePath) (session : ℕ) (synthetic : Bool) (ch first : ℕ) :
    Decidable (p.HoldsFrom session synthetic ch first) :=
  inferInstanceAs (Decidable (_ ∧ _ ∧ (_ → _)))

/-- The rings of a route hold the same frames, of this session and mode, and the gate is down. -/
def InStep (p : CapturePath) (route : TransferRoute) : Prop :=
  p.bus.resyncPending = false ∧
    p.HoldsFrom p.bus.epoch p.synthetic route.referenceChannel
      (p.firstNumber route.referenceChannel) ∧
    p.HoldsFrom p.bus.epoch p.synthetic route.measurementChannel
      (p.firstNumber route.referenceChannel)

instance (p : CapturePath) (route : TransferRoute) : Decidable (p.InStep route) :=
  inferInstanceAs (Decidable (_ ∧ _ ∧ _))

/-- Since an accumulation began, no resync has, and neither ring has refused a block. -/
def Unbroken (p : CapturePath) (b : Beginning) : Prop :=
  p.bus.resyncSeq = b.resyncSeq ∧
    p.bus.drops b.route.referenceChannel = b.drops b.route.referenceChannel ∧
    p.bus.drops b.route.measurementChannel = b.drops b.route.measurementChannel

instance (p : CapturePath) (b : Beginning) : Decidable (p.Unbroken b) :=
  inferInstanceAs (Decidable (_ ∧ _ ∧ _))

/-- The accumulation is under way, it is for the last request, and it is unbroken. -/
def Continues (p : CapturePath) (b : Beginning) : Prop :=
  p.tap.locateArmRequested = false ∧ p.tap.locateCapturing = true ∧ p.Unbroken b

instance (p : CapturePath) (b : Beginning) : Decidable (p.Continues b) :=
  inferInstanceAs (Decidable (_ ∧ _ ∧ _))

/-- There is such an accumulation, and it began so. -/
def Accumulating (p : CapturePath) (b : Beginning) : Prop := p.begun = some b ∧ p.Continues b

/-- The tick's resync is over, and a drain comes next. -/
def isServiced : DrainStage → Bool
  | .serviced => true
  | _ => false

/-- The condition on a step of the analysis thread. While a request waits, no capture is stored; an
accumulation begins with the rings of its route in step; and a drain that goes on with it finds the
route where it was. -/
def PathKept (p q : CapturePath) : Prop :=
  (p.tap.locateArmRequested = true → q.tap.stored = p.tap.stored) ∧
    (p.tap.locateArmRequested = false → p.begun.isNone = true →
      ∀ b ∈ q.begun, p.InStep b.route) ∧
    ∀ b ∈ p.begun, p.Continues b → isServiced p.stage = true → p.plan.routes.head? = some b.route

instance (p q : CapturePath) : Decidable (PathKept p q) := inferInstanceAs (Decidable (_ ∧ _ ∧ _))

/-! ### The invariants -/

/-- What holds whoever is waiting. -/
structure PathInv (p : CapturePath) : Prop where
  attached : p.bus.consumerAttached = true
  sound : ∀ plan, p.stage.plan = some plan → plan.Sound
  refs : ∀ plan, p.stage.plan = some plan → ∀ ref ∈ p.stage.refs,
    ∃ route ∈ plan.routes, route.referenceChannel = ref
  armBefore : p.arm.Before p.circumstances
  begunBefore : ∀ b, p.begun = some b → b.Before p.circumstances

/-- An unbroken accumulation: so many samples of the stretch are in the buffer, the rings go on from
there, and so does the plan of the drain under way. -/
structure Accumulates (p : CapturePath) (b : Beginning) (fed : ℕ) : Prop where
  gate : p.bus.resyncPending = false
  mode : p.bus.active = true → p.synthetic = b.synthetic
  buffer : ∃ hops, p.tap.locateBuffer.Holds noFrame p.tap.locateBuffer.length hops ∧
    hops.flatMap (·.reference) =
      frameRun b.session b.synthetic b.route.referenceChannel b.first fed ∧
    hops.flatMap (·.measurement) =
      frameRun b.session b.synthetic b.route.measurementChannel b.first fed
  reference : p.HoldsFrom b.session b.synthetic b.route.referenceChannel (b.first + fed)
  measurement : p.HoldsFrom b.session b.synthetic b.route.measurementChannel (b.first + fed)
  planned : ∀ plan, p.stage.plan = some plan → plan.routes.head? = some b.route

/-- What holds of the capture that a feature is waiting for. -/
structure LiveInv (p : CapturePath) : Prop where
  requested : p.tap.requestedRouteIndex = 0
  empty : p.tap.locateArmRequested = true → p.tap.locateCapture = none
  index : p.tap.locateArmRequested = false → p.tap.locateRouteIndex = 0
  since : p.tap.locateArmRequested = false → ∀ b, p.begun = some b → p.arm.Before b.toCircumstances
  fresh : p.tap.locateArmRequested = false → p.tap.locateCapturing = true → p.begun = none →
    p.tap.locateBuffer.Holds noFrame p.tap.locateBuffer.length []
  waiting : p.tap.locateArmRequested = false → p.tap.locateCapturing = true →
    p.tap.locateCapture = none
  accumulates : ∀ b, p.Accumulating b → ∃ fed, p.Accumulates b fed
  stored : ∀ capture, p.tap.locateCapture = some capture → ∃ b, p.begun = some b ∧
    (p.Unbroken b → capture.2.IsStretch b.session b.synthetic b.route b.first)

/-! ### Steps that leave the accumulator alone -/

variable {p q : CapturePath}

variable {b : Beginning} {capture : ℕ × LocateCapture CapturedFrame}

theorem LiveInv.request_eq_false (hl : LiveInv p)
    (h : p.tap.locateCapture = some capture) : p.tap.locateArmRequested = false := by
  refine Bool.eq_false_of_not_eq_true fun hrequest => ?_
  rw [hl.empty hrequest] at h
  cases h

/-- And stays there while nothing is accumulated. -/
theorem LiveInv.capture_kept (hl : LiveInv p) (hframe : AnalysisFrame p q)
    (h : p.tap.locateCapture = some capture) :
    q.tap.locateCapture = some capture := by
  have hrequest := hl.request_eq_false h
  rcases hframe.stored hrequest with heq | ⟨hcapturing, -⟩
  · rw [heq, h]
  · rw [hl.waiting hrequest hcapturing] at h
    cases h

theorem unbroken_of_begins (h : b.toCircumstances = p.circumstances) :
    p.Unbroken b := by
  have hseq : b.resyncSeq = p.bus.resyncSeq := congrArg (·.resyncSeq) h
  have hdrops : b.drops = p.bus.drops := congrArg (·.drops) h
  rw [Unbroken, hseq, hdrops]
  exact ⟨rfl, rfl, rfl⟩

theorem Unbroken.congr (h : p.Unbroken b) (hpq : q.circumstances = p.circumstances) :
    q.Unbroken b := by
  have hseq : q.bus.resyncSeq = p.bus.resyncSeq := congrArg (·.resyncSeq) hpq
  have hdrops : q.bus.drops = p.bus.drops := congrArg (·.drops) hpq
  rw [Unbroken, hseq, hdrops]
  exact h

theorem Unbroken.of_before (hb : b.Before p.circumstances)
    (hpq : p.circumstances.Before q.circumstances) (h : q.Unbroken b) : p.Unbroken b := by
  obtain ⟨hseq, hreference, hmeasurement⟩ := h
  obtain ⟨hp, hq⟩ := hb.seq_eq hpq hseq
  have hlow := hb.drops_le hp
  have hhigh := hpq.drops_le hq
  exact ⟨hp, Nat.le_antisymm (hreference ▸ hhigh _) (hlow _),
    Nat.le_antisymm (hmeasurement ▸ hhigh _) (hlow _)⟩

/-- Neither ring of an accumulation that stays unbroken refuses a block. -/
theorem Unbroken.drops_eq (hp : p.Unbroken b) (hq : q.Unbroken b) :
    q.bus.drops b.route.referenceChannel = p.bus.drops b.route.referenceChannel ∧
      q.bus.drops b.route.measurementChannel = p.bus.drops b.route.measurementChannel :=
  ⟨hq.2.1.trans hp.2.1.symm, hq.2.2.trans hp.2.2.symm⟩

/-- A step that touches neither the accumulator nor the drain. -/
structure Aside (p q : CapturePath) : Prop where
  tap : q.tap = p.tap
  stage : q.stage = p.stage
  arm : q.arm = p.arm
  begun : q.begun = p.begun
  attached : q.bus.consumerAttached = p.bus.consumerAttached
  before : p.circumstances.Before q.circumstances

theorem PathInv.aside (hp : PathInv p) (h : Aside p q) : PathInv q where
  attached := h.attached.trans hp.attached
  sound := h.stage ▸ hp.sound
  refs := h.stage ▸ hp.refs
  armBefore := h.arm ▸ hp.armBefore.trans h.before
  begunBefore b hb := (hp.begunBefore b (h.begun ▸ hb)).trans h.before

theorem LiveInv.of_tap (hl : LiveInv p) (hp : PathInv p) (htap : q.tap = p.tap)
    (harm : q.arm = p.arm) (hbegun : q.begun = p.begun)
    (hbefore : p.circumstances.Before q.circumstances)
    (hgoes : ∀ b fed, p.Accumulating b → q.Unbroken b → p.Accumulates b fed →
      q.Accumulates b fed) : LiveInv q where
  requested := htap ▸ hl.requested
  empty := htap ▸ hl.empty
  index := htap ▸ hl.index
  since := by
    rw [htap, hbegun, harm]
    exact hl.since
  fresh := by
    rw [htap, hbegun]
    exact hl.fresh
  waiting := htap ▸ hl.waiting
  accumulates b hb := by
    obtain ⟨hb, hrequest, hcapturing, hunbroken⟩ := hb
    rw [hbegun] at hb
    rw [htap] at hrequest hcapturing
    have hacc : p.Accumulating b :=
      ⟨hb, hrequest, hcapturing, hunbroken.of_before (hp.begunBefore b hb) hbefore⟩
    obtain ⟨fed, hfed⟩ := hl.accumulates b hacc
    exact ⟨fed, hgoes b fed hacc hunbroken hfed⟩
  stored capture hcapture := by
    rw [htap] at hcapture
    obtain ⟨b, hb, hstretch⟩ := hl.stored capture hcapture
    refine ⟨b, hbegun.trans hb, fun hunbroken => hstretch ?_⟩
    exact hunbroken.of_before (hp.begunBefore b hb) hbefore

theorem LiveInv.aside (hl : LiveInv p) (hp : PathInv p) (h : Aside p q)
    (hgoes : ∀ b fed, p.Accumulating b → q.Unbroken b → p.Accumulates b fed →
      q.Accumulates b fed) : LiveInv q :=
  hl.of_tap hp h.tap h.arm h.begun h.before hgoes

/-- A resync begins. -/
structure Resynced (p q : CapturePath) : Prop where
  tap : q.tap = p.tap
  stage : q.stage = p.stage
  arm : q.arm = p.arm
  begun : q.begun = p.begun
  attached : q.bus.consumerAttached = p.bus.consumerAttached
  seq_lt : p.bus.resyncSeq < q.bus.resyncSeq

theorem before_of_seq_lt (h : p.bus.resyncSeq < q.bus.resyncSeq) :
    p.circumstances.Before q.circumstances := by
  have hne : q.circumstances.resyncSeq ≠ p.circumstances.resyncSeq := Nat.ne_of_gt h
  exact ⟨Nat.le_of_lt h, fun h => absurd h hne, fun h => absurd h hne, fun h => absurd h hne,
    fun h => absurd h hne, fun h => absurd h hne⟩

theorem Resynced.aside (h : Resynced p q) : Aside p q :=
  ⟨h.tap, h.stage, h.arm, h.begun, h.attached, before_of_seq_lt h.seq_lt⟩

/-- After which nothing is unbroken. -/
theorem LiveInv.resynced (hl : LiveInv p) (hp : PathInv p) (h : Resynced p q) : LiveInv q := by
  refine hl.aside hp h.aside fun b fed hacc hunbroken _ => ?_
  have hseq := hacc.2.2.2.1
  have hseq' := hunbroken.1
  have hlt := h.seq_lt
  omega

/-- An edit of the roles or tags, or the end of the blocks: no frame moves, and no channel of the
accumulated route is written that was not. -/
structure Quiet (p q : CapturePath) : Prop where
  tap : q.tap = p.tap
  stage : q.stage = p.stage
  arm : q.arm = p.arm
  begun : q.begun = p.begun
  nextFrame : q.nextFrame = p.nextFrame
  rings : q.bus.rings = p.bus.rings
  drops : q.bus.drops = p.bus.drops
  resyncSeq : q.bus.resyncSeq = p.bus.resyncSeq
  pending : q.bus.resyncPending = p.bus.resyncPending
  epoch : q.bus.epoch = p.bus.epoch
  attached : q.bus.consumerAttached = p.bus.consumerAttached
  preparedChannels : q.bus.preparedChannels = p.bus.preparedChannels
  mode : q.synthetic = true → p.synthetic = true
  active : q.bus.active = true → p.bus.active = true ∧ q.synthetic = p.synthetic
  written : ∀ b, p.Accumulating b → ∀ ch,
    ch = b.route.referenceChannel ∨ ch = b.route.measurementChannel → q.Written ch → p.Written ch

theorem Quiet.aside (h : Quiet p q) : Aside p q where
  tap := h.tap
  stage := h.stage
  arm := h.arm
  begun := h.begun
  attached := h.attached
  before :=
    { resyncSeq_le := Nat.le_of_eq h.resyncSeq.symm
      session_eq := fun _ => h.epoch
      preparedChannels_eq := fun _ => h.preparedChannels
      synthetic_imp := fun _ => h.mode
      drops_le := fun _ ch => Nat.le_of_eq (congrFun h.drops ch).symm
      drops_eq := fun _ ch _ => congrFun h.drops ch }

variable {synthetic : Bool}

variable {session : ℕ}

theorem HoldsFrom.of_rings {ch first : ℕ} (h : p.HoldsFrom session synthetic ch first)
    (hrings : (q.bus.rings ch).items = (p.bus.rings ch).items) (hnext : q.nextFrame = p.nextFrame)
    (hwritten : q.Written ch → p.Written ch) : q.HoldsFrom session synthetic ch first := by
  have havailable : q.bus.availableToRead ch = p.bus.availableToRead ch := congrArg _ hrings
  obtain ⟨hitems, hle, heq⟩ := h
  rw [HoldsFrom, hrings, havailable, hnext]
  exact ⟨hitems, hle, fun hw => heq (hwritten hw)⟩

theorem LiveInv.quiet (hl : LiveInv p) (hp : PathInv p) (h : Quiet p q) : LiveInv q := by
  refine hl.aside hp h.aside fun b fed hacc _ hfed => ?_
  have hw := h.written b hacc
  exact
    { gate := h.pending.trans hfed.gate
      mode := fun ha => (h.active ha).2.trans (hfed.mode (h.active ha).1)
      buffer := h.tap ▸ hfed.buffer
      reference := hfed.reference.of_rings (by rw [h.rings]) h.nextFrame (hw _ (.inl rfl))
      measurement := hfed.measurement.of_rings (by rw [h.rings]) h.nextFrame (hw _ (.inr rfl))
      planned := h.stage ▸ hfed.planned }

/-! ### A block is pushed -/

theorem push_aside (n : ℕ) : Aside p (p.push n) := by
  obtain ⟨hbus, hrings⟩ := p.push_effect n
  refine ⟨rfl, rfl, rfl, rfl, hbus.attached, Nat.le_of_eq hbus.resyncSeq.symm, fun _ => hbus.epoch,
    fun _ => hbus.preparedChannels, fun _ => id, fun _ ch => ?_, fun _ ch hch => ?_⟩
  · show p.bus.drops ch ≤ (p.push n).bus.drops ch
    cases hrings ch with
    | passed _ hdrops _ => exact Nat.le_of_eq hdrops.symm
    | taken _ _ hdrops => exact Nat.le_of_eq hdrops.symm
    | refused _ _ hdrops => exact hdrops ▸ Nat.le_add_right _ _
  · cases hrings ch with
    | passed _ hdrops _ => exact hdrops
    | taken _ _ hdrops => exact hdrops
    | refused hwritten => exact absurd hwritten.2.1 (Nat.not_lt.mpr hch)

/-- A block that is not refused goes on where the ring ends. -/
theorem HoldsFrom.push {ch first n : ℕ}
    (h : p.HoldsFrom session synthetic ch first) (hgate : p.bus.resyncPending = false)
    (hsession : p.bus.epoch = session) (hmode : p.bus.active = true → p.synthetic = synthetic)
    (hdrops : (p.push n).bus.drops ch = p.bus.drops ch) :
    (p.push n).HoldsFrom session synthetic ch first := by
  obtain ⟨hitems, hle, heq⟩ := h
  have hnext : (p.push n).nextFrame = p.nextFrame + n := rfl
  rw [HoldsFrom, hnext, push_written]
  cases (p.push_effect n).2 ch with
  | passed hrings _ hnot =>
    have havailable : (p.push n).bus.availableToRead ch = p.bus.availableToRead ch :=
      congrArg _ hrings
    rw [hrings, havailable]
    refine ⟨hitems, by omega, fun hw => ?_⟩
    have hend := heq hw
    have hzero := hnot hgate hw
    omega
  | taken hw hrings _ =>
    have hend := heq hw
    have havailable : (p.push n).bus.availableToRead ch = p.bus.availableToRead ch + n := by
      rw [CaptureBus.availableToRead, hrings, List.length_append, length_frameRun]
      rfl
    rw [hrings, havailable, hitems, hsession, hmode hw.1, ← hend, frameRun_append]
    exact ⟨rfl, by omega, fun _ => by omega⟩
  | refused _ hn hrefused =>
    omega

theorem LiveInv.push (hl : LiveInv p) (hp : PathInv p) (n : ℕ) : LiveInv (p.push n) := by
  obtain ⟨hbus, -⟩ := p.push_effect n
  refine hl.aside hp (push_aside n) fun b fed hacc hunbroken hfed => ?_
  have hbefore := hp.begunBefore b hacc.1
  have hsession : p.bus.epoch = b.session := hbefore.session_eq hacc.2.2.2.1
  have hdrops := hacc.2.2.2.drops_eq hunbroken
  exact
    { gate := hbus.pending.trans hfed.gate
      mode := fun ha => hfed.mode (hbus.active ▸ ha)
      buffer := hfed.buffer
      reference := hfed.reference.push hfed.gate hsession hfed.mode hdrops.1
      measurement := hfed.measurement.push hfed.gate hsession hfed.mode hdrops.2
      planned := hfed.planned }

/-! ### A request is made -/

theorem PathInv.armLocateCapture (hp : PathInv p) (routeIndex : ℤ) (length : ℕ) :
    PathInv (p.armLocateCapture routeIndex length) where
  attached := hp.attached
  sound := hp.sound
  refs := hp.refs
  armBefore := .refl _
  begunBefore := hp.begunBefore

/-- Whatever was going on, from now on it is for nobody. -/
theorem PathInv.live_armLocateCapture (length : ℕ) : LiveInv (p.armLocateCapture 0 length) where
  requested := rfl
  empty _ := rfl
  index := nofun
  since := nofun
  fresh := nofun
  waiting := nofun
  accumulates _ hb := nomatch hb.2.1
  stored := nofun

/-! ### A tick begins -/

variable {stage : DrainStage} {ch first hop : ℕ}

theorem PathInv.moves (hp : PathInv p)
    (hstage : ∀ plan, stage.plan = some plan → p.stage.plan = some plan ∧
      ∀ ref ∈ stage.refs, ref ∈ p.stage.refs) : PathInv { p with stage := stage } where
  attached := hp.attached
  sound plan h := hp.sound plan (hstage plan h).1
  refs plan h ref href := hp.refs plan (hstage plan h).1 ref ((hstage plan h).2 ref href)
  armBefore := hp.armBefore
  begunBefore := hp.begunBefore

theorem LiveInv.moves (hl : LiveInv p) (hp : PathInv p)
    (hstage : ∀ plan, stage.plan = some plan → p.stage.plan = some plan) :
    LiveInv { p with stage := stage } := by
  refine hl.of_tap hp rfl rfl rfl (.refl _) fun b fed hacc _ hfed => ?_
  exact { hfed with planned := fun plan h => hfed.planned plan (hstage plan h) }

theorem service_aside (p : CapturePath) (now : ℕ) :
    Aside p { p with bus := (p.bus.serviceResyncAsConsumer now).2 } := by
  have h := p.bus.serviceResyncAsConsumer_serviced now
  refine ⟨rfl, rfl, rfl, rfl, h.attached, h.seq_le, fun _ => h.epoch, fun _ => h.preparedChannels,
    fun _ => id, fun _ ch => ?_, fun _ ch _ => ?_⟩
  · exact Nat.le_of_eq (congrFun h.drops ch).symm
  · exact congrFun h.drops ch

/-- A resync is counted; a tick without one leaves the rings alone. -/
theorem LiveInv.service (hl : LiveInv p) (hp : PathInv p) (now : ℕ) :
    LiveInv { p with bus := (p.bus.serviceResyncAsConsumer now).2 } := by
  have h := p.bus.serviceResyncAsConsumer_serviced now
  refine hl.aside hp (service_aside p now) fun b fed hacc hunbroken hfed => ?_
  have hseq := hunbroken.1.trans hacc.2.2.2.1.symm
  have hwritten : ∀ ch, CapturePath.Written { p with bus := (p.bus.serviceResyncAsConsumer now).2 }
      ch → p.Written ch := by
    intro ch
    simp only [Written, h.active, h.preparedChannels, h.config]
    exact id
  have hitems : ∀ ch, ((p.bus.serviceResyncAsConsumer now).2.rings ch).items =
      (p.bus.rings ch).items := fun ch => by rw [h.rings hseq]
  exact
    { gate := (h.pending hseq).trans hfed.gate
      mode := fun ha => hfed.mode (h.active ▸ ha)
      buffer := hfed.buffer
      reference := hfed.reference.of_rings (hitems _) rfl (hwritten _)
      measurement := hfed.measurement.of_rings (hitems _) rfl (hwritten _)
      planned := hfed.planned }

/-! ### A drain begins -/

theorem PathInv.takeUp (hp : PathInv p) : PathInv p.takeUp := by
  rw [CapturePath.takeUp]
  split
  · refine { hp with begunBefore := ?_ }
    intro b hb
    cases hb
  · exact hp

theorem LiveInv.takeUp (hl : LiveInv p) : LiveInv p.takeUp := by
  rw [CapturePath.takeUp]
  split
  · rename_i hrequest
    have hslot := hl.empty hrequest
    refine ⟨hl.requested, fun h => ?_, fun _ => hl.requested, fun _ b hb => ?_,
      fun _ _ _ => RawCaptureBuffer.holds_arm _ _, fun _ _ => hslot, fun b hb => ?_,
      fun capture hcapture => ?_⟩
    · cases h
    · cases hb
    · cases hb.1
    · cases hslot.symm.trans hcapture
  · exact hl

/-- With rings that anything was done to, as long as nobody goes on with them. -/
theorem LiveInv.rings (hl : LiveInv p) (hp : PathInv p) (rings : ℕ → BoundedQueue CapturedFrame)
    (stage : DrainStage) (hnone : ∀ b, ¬ p.Accumulating b) :
    LiveInv { p with bus := { p.bus with rings := rings }, stage := stage } :=
  hl.of_tap hp rfl rfl rfl (.refl _) fun b _ hacc => absurd hacc (hnone b)

theorem PathInv.rings (hp : PathInv p) (rings : ℕ → BoundedQueue CapturedFrame) :
    PathInv { p with bus := { p.bus with rings := rings }, stage := .waiting } where
  attached := hp.attached
  sound := nofun
  refs := nofun
  armBefore := hp.armBefore
  begunBefore := hp.begunBefore

theorem PathInv.beginDrain (hp : PathInv p) (hop : ℕ) : PathInv (p.beginDrain hop) := by
  have htaken := hp.takeUp
  rcases beginDrain_eq hop p with heq | ⟨-, rings, heq⟩
  · have hsound : p.takeUp.plan.Sound := planRouting_sound _ _
    rw [heq]
    refine ⟨htaken.attached, fun plan h => ?_, fun plan h => ?_, htaken.armBefore,
      htaken.begunBefore⟩
    · cases h
      exact hsound
    · cases h
      exact hsound.refs
  · rw [heq]
    exact htaken.rings rings

theorem LiveInv.beginDrain (hl : LiveInv p) (hp : PathInv p) (hop : ℕ)
    (hkept : ∀ b, p.Accumulating b → p.plan.routes.head? = some b.route) :
    LiveInv (p.beginDrain hop) := by
  have hlive := hl.takeUp
  obtain ⟨hbus, -, hsame⟩ := p.takeUp_frame
  have hroute : ∀ b, p.takeUp.Accumulating b → p.takeUp.plan.routes.head? = some b.route := by
    intro b hacc
    have heq := hsame b hacc.1
    rw [heq] at hacc ⊢
    exact hkept b hacc
  rcases beginDrain_eq hop p with heq | ⟨hroutes, rings, heq⟩
  · rw [heq]
    refine hlive.of_tap hp.takeUp rfl rfl rfl (.refl _) fun b fed hacc _ hfed => ?_
    refine { hfed with planned := fun plan h => ?_ }
    cases h
    exact hroute b hacc
  · rw [heq]
    refine hlive.rings hp.takeUp rings _ fun b hacc => ?_
    have hhead := hroute b hacc
    rw [hroutes] at hhead
    cases hhead

/-! ### One hop of a group -/

theorem drainHop_unbroken (hop : ℕ) (p : CapturePath) (plan : RoutingPlan) (ref : ℕ)
    (refs : List ℕ) (left : ℕ) (b : Beginning) :
    (p.drainHop hop plan ref refs left).Unbroken b ↔ p.Unbroken b := by
  rw [Unbroken, drainHop_frame]
  rfl

theorem HoldsFrom.peek
    (h : p.HoldsFrom session synthetic ch first) (hhop : hop ≤ p.bus.availableToRead ch) :
    (p.bus.rings ch).peek hop = frameRun session synthetic ch first hop := by
  rw [BoundedQueue.peek, h.1, take_frameRun _ _ _ _ hhop]

theorem HoldsFrom.drop
    (h : p.HoldsFrom session synthetic ch first) (hhop : hop ≤ p.bus.availableToRead ch)
    (hitems : (q.bus.rings ch).items = (p.bus.rings ch).items.drop hop)
    (hnext : q.nextFrame = p.nextFrame) (hwritten : q.Written ch ↔ p.Written ch) :
    q.HoldsFrom session synthetic ch (first + hop) := by
  obtain ⟨hrun, hle, heq⟩ := h
  have havailable : q.bus.availableToRead ch = p.bus.availableToRead ch - hop := by
    rw [CaptureBus.availableToRead, hitems, List.length_drop]
    rfl
  rw [HoldsFrom, hitems, havailable, hnext, hwritten, hrun, drop_frameRun _ _ _ _ hhop]
  refine ⟨rfl, by omega, fun hw => ?_⟩
  have := heq hw
  omega

theorem Accumulates.feedHop {b : Beginning} {fed hop : ℕ} (h : p.Accumulates b fed)
    (hreference : hop ≤ p.bus.availableToRead b.route.referenceChannel)
    (hmeasurement : hop ≤ p.bus.availableToRead b.route.measurementChannel) :
    ∃ hops, RawCaptureBuffer.Holds noFrame p.tap.locateBuffer.length hops
        (p.tap.locateBuffer.feedHop ((p.bus.rings b.route.referenceChannel).peek hop)
          ((p.bus.rings b.route.measurementChannel).peek hop)) ∧
      hops.flatMap (·.reference) =
        frameRun b.session b.synthetic b.route.referenceChannel b.first (fed + hop) ∧
      hops.flatMap (·.measurement) =
        frameRun b.session b.synthetic b.route.measurementChannel b.first (fed + hop) := by
  obtain ⟨hops, hholds, href, hmeas⟩ := h.buffer
  rw [h.reference.peek hreference, h.measurement.peek hmeasurement]
  refine ⟨hops ++ [⟨0, _, _, (length_frameRun ..).trans (length_frameRun ..).symm⟩], hholds.feedHop _, ?_, ?_⟩
  · rw [List.flatMap_append, List.flatMap_singleton, href, frameRun_append]
  · rw [List.flatMap_append, List.flatMap_singleton, hmeas, frameRun_append]

theorem isStretch_of_holds {buffer : RawCaptureBuffer CapturedFrame} {length fed : ℕ}
    {hops : List (PairedHop CapturedFrame)} {b : Beginning} (h : buffer.Holds noFrame length hops)
    (hreference : hops.flatMap (·.reference) =
      frameRun b.session b.synthetic b.route.referenceChannel b.first fed)
    (hmeasurement : hops.flatMap (·.measurement) =
      frameRun b.session b.synthetic b.route.measurementChannel b.first fed)
    (hfull : buffer.isFull = true) :
    LocateCapture.IsStretch ⟨buffer.reference, buffer.measurement⟩ b.session b.synthetic b.route
      b.first := by
  obtain ⟨href, hmeas, hlength, -⟩ := h.of_isFull hfull
  have hle : length ≤ fed := by
    rw [href, hreference, List.length_take, length_frameRun] at hlength
    omega
  rw [LocateCapture.IsStretch, hlength, href, hmeas, hreference, hmeasurement,
    take_frameRun _ _ _ _ hle, take_frameRun _ _ _ _ hle]
  exact ⟨rfl, rfl⟩

variable {plan : RoutingPlan} {ref hop left : ℕ}

variable {refs : List ℕ}

variable {route : TransferRoute}

/-- The accumulation that a tapped hop goes to: the one under way, or the one it begins. -/
theorem LiveInv.exists_accumulates (hl : LiveInv p)
    (hstage : p.stage = .hops plan ref refs (left + 1))
    (hkept : p.PathKept (p.drainHop hop plan ref refs left))
    (hrequest : p.tap.locateArmRequested = false)
    (htapped : p.tappedRoute plan ref = some route) :
    ∃ b, (p.drainHop hop plan ref refs left).begun = some b ∧
      (p.begun = some b ∨ p.begun = none ∧ b = p.beginning route) ∧
      (p.Unbroken b → b.route = route ∧ ∃ fed, p.Accumulates b fed) := by
  obtain ⟨hcapturing, hhead, -⟩ := (tappedRoute_eq_some (hl.index hrequest)).mp htapped
  have hplan : p.stage.plan = some plan := by rw [hstage]; rfl
  cases hbegun : p.begun with
  | some b =>
    refine ⟨b, ?_, .inl rfl, fun hunbroken => ?_⟩
    · show p.begun.orElse _ = some b
      rw [hbegun]
      rfl
    · obtain ⟨fed, hfed⟩ := hl.accumulates b ⟨hbegun, hrequest, hcapturing, hunbroken⟩
      have hsame := (hfed.planned plan hplan).symm.trans hhead
      exact ⟨Option.some.inj hsame, fed, hfed⟩
  | none =>
    have hq : (p.drainHop hop plan ref refs left).begun = some (p.beginning route) := by
      show p.begun.orElse _ = _
      rw [hbegun, htapped]
      rfl
    obtain ⟨hgate, hreference, hmeasurement⟩ := hkept.2.1 hrequest (by rw [hbegun]; rfl) _ hq
    refine ⟨p.beginning route, hq, .inr ⟨rfl, rfl⟩, fun _ => ⟨rfl, 0, ?_⟩⟩
    exact
      { gate := hgate
        mode := fun _ => rfl
        buffer := ⟨[], hl.fresh hrequest hcapturing hbegun, rfl, rfl⟩
        reference := hreference
        measurement := hmeasurement
        planned := fun plan' hplan' => by
          rw [hplan] at hplan'
          cases hplan'
          exact hhead }

/-- While a request waits, a hop stores nothing, and what else it does is for nobody. -/
theorem LiveInv.drainHop_requested (hl : LiveInv p)
    (hkept : p.PathKept (p.drainHop hop plan ref refs left))
    (hrequest : p.tap.locateArmRequested = true) : LiveInv (p.drainHop hop plan ref refs left) := by
  have hsame : SameRequest p.tap (p.drainHop hop plan ref refs left).tap :=
    sameRequest_foldl hop ref _ _ (p.bus.discardRing ref hop, p.tap)
  have hrequest' := hsame.request.trans hrequest
  have hnot : ¬ (p.drainHop hop plan ref refs left).tap.locateArmRequested = false := by
    rw [hrequest']
    exact nofun
  have hslot := (hsame.capture (hkept.1 hrequest)).trans (hl.empty hrequest)
  exact
    { requested := hsame.requested.trans hl.requested
      empty := fun _ => hslot
      index := fun h => absurd h hnot
      since := fun h => absurd h hnot
      fresh := fun h => absurd h hnot
      waiting := fun h => absurd h hnot
      accumulates := fun _ hb => absurd hb.2.1 hnot
      stored := fun _ h => nomatch hslot.symm.trans h }

/-- What a hop leaves as it is, whoever it is for. -/
structure HopFrame (p q : CapturePath) : Prop where
  before : p.circumstances.Before q.circumstances
  gate : q.bus.resyncPending = p.bus.resyncPending
  active : q.bus.active = p.bus.active
  plan : q.stage.plan = p.stage.plan

theorem drainHop_hopFrame (hop : ℕ) {ref left : ℕ}
    (hstage : p.stage = .hops plan ref refs (left + 1)) :
    HopFrame p (p.drainHop hop plan ref refs left) where
  before := by
    rw [drainHop_circumstances]
    exact .refl _
  gate := by rw [drainHop_frame]
  active := by rw [drainHop_frame]
  plan := by
    rw [hstage]
    rfl

theorem LiveInv.drainHop_untapped (hl : LiveInv p) (hp : PathInv p)
    (hstage : p.stage = .hops plan ref refs (left + 1))
    (hindex : p.tap.locateRouteIndex = 0) (htapped : p.tappedRoute plan ref = none) :
    LiveInv (p.drainHop hop plan ref refs left) := by
  have hplan : p.stage.plan = some plan := by rw [hstage]; rfl
  have hsound := hp.sound plan hplan
  have href := hp.refs plan hplan ref (by rw [hstage]; exact List.mem_cons_self)
  have hframe := drainHop_hopFrame hop hstage
  have htap : (p.drainHop hop plan ref refs left).tap = p.tap := by
    rw [drainHop_tap hop p plan ref refs left hindex, htapped]
  have hbegun : (p.drainHop hop plan ref refs left).begun = p.begun := by
    show p.begun.orElse _ = _
    rw [htapped]
    cases p.begun <;> rfl
  refine hl.of_tap hp htap rfl hbegun hframe.before fun b fed hacc _ hfed => ?_
  have hhead := hfed.planned plan hplan
  obtain ⟨routes, hroutes⟩ := List.head?_eq_some_iff.mp hhead
  have hne : b.route.referenceChannel ≠ ref := by
    intro heq
    have hsome := (tappedRoute_eq_some hindex).mpr ⟨hacc.2.2.1, hhead, heq⟩
    rw [htapped] at hsome
    cases hsome
  have hitems : ∀ ch, ch = b.route.referenceChannel ∨ ch = b.route.measurementChannel →
      ((p.drainHop hop plan ref refs left).bus.rings ch).items = (p.bus.rings ch).items :=
    fun ch hch => items_drainHop_of_ne hop p refs left hsound href hroutes hne hch
  exact
    { gate := hframe.gate.trans hfed.gate
      mode := fun ha => hfed.mode (hframe.active ▸ ha)
      buffer := htap ▸ hfed.buffer
      reference := hfed.reference.of_rings (hitems _ (.inl rfl)) rfl (drainHop_written ..).mp
      measurement := hfed.measurement.of_rings (hitems _ (.inr rfl)) rfl (drainHop_written ..).mp
      planned := fun plan' h => hfed.planned plan' (hframe.plan ▸ h) }

/-- A tapped hop that does not fill the buffer carries the stretch on. -/
theorem Accumulates.drainHop {b : Beginning} {fed hop left : ℕ} (h : p.Accumulates b fed)
    (hp : PathInv p)
    (hstage : p.stage = .hops plan b.route.referenceChannel refs (left + 1))
    (hhas : p.groupHasHop hop plan b.route.referenceChannel)
    (hbuffer : (p.drainHop hop plan b.route.referenceChannel refs left).tap.locateBuffer =
      p.tap.locateBuffer.feedHop ((p.bus.rings b.route.referenceChannel).peek hop)
        ((p.bus.rings b.route.measurementChannel).peek hop)) :
    (p.drainHop hop plan b.route.referenceChannel refs left).Accumulates b (fed + hop) := by
  have hplan : p.stage.plan = some plan := by rw [hstage]; rfl
  have hsound := hp.sound plan hplan
  have hframe := drainHop_hopFrame hop hstage
  obtain ⟨routes, hroutes⟩ := List.head?_eq_some_iff.mp (h.planned plan hplan)
  have hmeasurement := hhas.2 b.route (hroutes ▸ List.mem_cons_self) rfl
  obtain ⟨hops, hholds, href, hmeas⟩ := h.feedHop hhas.1 hmeasurement
  have hlength := hholds.length_eq
  refine ⟨hframe.gate.trans h.gate, fun ha => h.mode (hframe.active ▸ ha), ?_, ?_, ?_,
    fun plan' hplan' => h.planned plan' (hframe.plan ▸ hplan')⟩
  · rw [hbuffer]
    exact ⟨hops, hlength.symm ▸ hholds, href, hmeas⟩
  · rw [← Nat.add_assoc]
    exact h.reference.drop hhas.1 (items_drainHop_head hop p refs left hsound hroutes (.inl rfl))
      rfl (drainHop_written ..)
  · rw [← Nat.add_assoc]
    exact h.measurement.drop hmeasurement
      (items_drainHop_head hop p refs left hsound hroutes (.inr rfl)) rfl (drainHop_written ..)

theorem LiveInv.drainHop_tapped (hl : LiveInv p) (hp : PathInv p)
    (hstage : p.stage = .hops plan ref refs (left + 1))
    (hhas : p.groupHasHop hop plan ref) (hkept : p.PathKept (p.drainHop hop plan ref refs left))
    (hrequest : p.tap.locateArmRequested = false)
    (htapped : p.tappedRoute plan ref = some route) :
    LiveInv (p.drainHop hop plan ref refs left) := by
  have hindex := hl.index hrequest
  obtain ⟨-, hhead, hroute⟩ := (tappedRoute_eq_some hindex).mp htapped
  obtain ⟨routes, hroutes⟩ := List.head?_eq_some_iff.mp hhead
  obtain ⟨b, hbegun, hfrom, hgoes⟩ := hl.exists_accumulates hstage hkept hrequest htapped
  subst hroute
  have hmeasurement := hhas.2 route (hroutes ▸ List.mem_cons_self) rfl
  have htap : (p.drainHop hop plan route.referenceChannel refs left).tap =
      p.tap.feed ((p.bus.rings route.referenceChannel).peek hop)
        ((p.bus.rings route.measurementChannel).peek hop) := by
    rw [drainHop_tap hop p plan _ refs left hindex, htapped]
  have hsame := sameRequest_feed p.tap ((p.bus.rings route.referenceChannel).peek hop)
    ((p.bus.rings route.measurementChannel).peek hop)
  have hcases := feed_cases p.tap ((p.bus.rings route.referenceChannel).peek hop)
    ((p.bus.rings route.measurementChannel).peek hop)
  rw [← htap] at hsame hcases
  have hunique : ∀ b', (p.drainHop hop plan route.referenceChannel refs left).begun = some b' →
      b' = b := fun b' hb' => Option.some.inj (hb'.symm.trans hbegun)
  refine ⟨hsame.requested.trans hl.requested, fun h => ?_, fun _ => ?_, fun _ b' hb' => ?_,
    fun _ _ hnone => ?_, fun _ hcapturing => ?_, fun b' hb' => ?_,
    fun capture hcapture => ⟨b, hbegun, ?_⟩⟩
  · rw [hsame.request, hrequest] at h
    cases h
  · rcases hcases with ⟨-, heq⟩ | ⟨-, heq⟩ <;> rw [heq] <;> exact hindex
  · rw [hunique b' hb']
    rcases hfrom with hold | ⟨-, rfl⟩
    · exact hl.since hrequest b hold
    · exact hp.armBefore
  · rw [hbegun] at hnone
    cases hnone
  · rcases hcases with ⟨-, heq⟩ | ⟨-, heq⟩ <;> rw [heq] at hcapturing ⊢
    · exact hl.waiting hrequest hcapturing
    · cases hcapturing
  · obtain ⟨hb', -, hcapturing, hunbroken⟩ := hb'
    rw [hunique b' hb'] at hunbroken ⊢
    obtain ⟨rfl, fed, hfed⟩ := hgoes ((drainHop_unbroken ..).mp hunbroken)
    rcases hcases with ⟨-, heq⟩ | ⟨-, heq⟩
    · exact ⟨fed + hop, hfed.drainHop hp hstage hhas (by rw [heq])⟩
    · rw [heq] at hcapturing
      cases hcapturing
  · intro hunbroken
    have hunbroken' := (drainHop_unbroken ..).mp hunbroken
    rcases hcases with ⟨-, heq⟩ | ⟨hfull, heq⟩
    · rw [heq] at hcapture
      obtain ⟨b', hb', hstretch⟩ := hl.stored capture hcapture
      rcases hfrom with hold | ⟨hnone, -⟩
      · cases hb'.symm.trans hold
        exact hstretch hunbroken'
      · cases hb'.symm.trans hnone
    · rw [heq] at hcapture
      cases hcapture
      obtain ⟨rfl, fed, hfed⟩ := hgoes hunbroken'
      obtain ⟨hops, hholds, href, hmeas⟩ := hfed.feedHop hhas.1 hmeasurement
      exact isStretch_of_holds hholds href hmeas hfull

/-- **One hop.** If the condition is met, the accumulation somebody waits for goes on. -/
theorem LiveInv.drainHop (hl : LiveInv p) (hp : PathInv p)
    (hstage : p.stage = .hops plan ref refs (left + 1))
    (hhas : p.groupHasHop hop plan ref)
    (hkept : p.PathKept (p.drainHop hop plan ref refs left)) :
    LiveInv (p.drainHop hop plan ref refs left) := by
  by_cases hrequest : p.tap.locateArmRequested = true
  · exact hl.drainHop_requested hkept hrequest
  · rw [Bool.not_eq_true] at hrequest
    cases htapped : p.tappedRoute plan ref with
    | none => exact hl.drainHop_untapped hp hstage (hl.index hrequest) htapped
    | some route => exact hl.drainHop_tapped hp hstage hhas hkept hrequest htapped

theorem PathInv.drainHop (hp : PathInv p) (hstage : p.stage = .hops plan ref refs (left + 1)) :
    PathInv (p.drainHop hop plan ref refs left) := by
  have hplan : p.stage.plan = some plan := by rw [hstage]; rfl
  refine ⟨?_, fun plan' h => ?_, fun plan' h => ?_, ?_, fun b hb => ?_⟩
  · rw [drainHop_frame]
    exact hp.attached
  · cases h
    exact hp.sound plan hplan
  · cases h
    have hrefs := hp.refs plan hplan
    rw [hstage] at hrefs
    exact hrefs
  · rw [drainHop_circumstances]
    exact hp.armBefore
  · rw [drainHop_circumstances]
    change p.begun.orElse _ = some b at hb
    cases hbegun : p.begun with
    | some b' =>
      rw [hbegun] at hb
      cases hb
      exact hp.begunBefore b hbegun
    | none =>
      rw [hbegun] at hb
      obtain ⟨route, -, rfl⟩ := Option.map_eq_some_iff.mp hb
      exact .refl _

/-! ### The analysis thread -/

theorem PathInv.analysis (hp : PathInv p) (hop now : ℕ) : PathInv (p.analysis hop now) := by
  have hcases := analysis_cases hop p now
  generalize p.analysis hop now = q at hcases ⊢
  cases hcases with
  | service => exact (hp.aside (service_aside p now)).moves nofun
  | moves stage h => exact hp.moves h
  | beginDrain => exact hp.beginDrain hop
  | hop plan ref refs left hstage _ => exact hp.drainHop hstage

theorem LiveInv.analysis (hl : LiveInv p) (hp : PathInv p) {hop now : ℕ}
    (hkept : p.PathKept (p.analysis hop now)) : LiveInv (p.analysis hop now) := by
  have hcases := analysis_cases hop p now
  generalize p.analysis hop now = q at hcases hkept ⊢
  cases hcases with
  | service => exact (hl.service hp now).moves (hp.aside (service_aside p now)) nofun
  | moves stage h => exact hl.moves hp fun plan hplan => (h plan hplan).1
  | beginDrain hstage =>
    refine hl.beginDrain hp hop fun b hacc => hkept.2.2 b hacc.1 hacc.2 ?_
    rw [hstage]
    rfl
  | hop plan ref refs left hstage hhas => exact hl.drainHop hp hstage hhas hkept

end CapturePath

end RtaTool
