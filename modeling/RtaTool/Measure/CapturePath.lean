import Mathlib.Algebra.Order.BigOperators.Group.Finset
import RtaTool.Measure.LocateCapture

/-!
# From the device to a capture

The way of a capture's samples: the device's callback writes them into the rings of the capture
bus, a drain of the analysis thread takes them out hop by hop for the routes of its plan, and the
hops of one position in that plan go to the accumulator. The position is a number; which channels
stand there is up to the roles and tags of the moment, and each drain plans anew.

A call of a member function is one step here, save that a drain is cut at its groups and its hops.
A frame knows where it is from: its channel, its number in all that has been delivered, and the
device session and the input mode it was taken in. Nothing reads that.

`arm` and `begun` are bookkeeping: the circumstances in which the accumulator was last armed, and
those in which the accumulation under way was fed its first hop. The circumstances only ever move
on (`Circumstances.le`), and what two equal resync sequences and two equal drop counts say about
the time between is read off that.

## Main definitions

* `CapturedFrame`, `CapturePath` -- the state
* `push`, `analysis`, `armLocateCapture` -- what the threads do to it
* `Circumstances` -- the session, the mode and the counters, with their order

## Main results

* `planRouting_sound` -- no channel of a plan is both a reference and a measurement
* `Circumstances.eq_of_between` -- equal counters leave no room for a change in between
-/

namespace RtaTool

/-! ### The state -/

/-- One channel's sample in one frame of the device. -/
structure CapturedFrame where
  channel : ℕ
  number : ℕ
  session : ℕ
  synthetic : Bool
  deriving DecidableEq, Repr

/-- Consecutive frames of one channel, in one session and mode. -/
def frameRun (session : ℕ) (synthetic : Bool) (channel first length : ℕ) : List CapturedFrame :=
  (List.range' first length).map fun n => ⟨channel, n, session, synthetic⟩

/-- One stretch of the two channels of a route: consecutive frames, the same ones of both. -/
def LocateCapture.IsStretch (capture : LocateCapture CapturedFrame) (session : ℕ)
    (synthetic : Bool) (route : TransferRoute) (first : ℕ) : Prop :=
  capture.reference =
      frameRun session synthetic route.referenceChannel first capture.reference.length ∧
    capture.measurement =
      frameRun session synthetic route.measurementChannel first capture.reference.length

/-- What the accumulator is zeroed with. -/
def noFrame : CapturedFrame := ⟨0, 0, 0, false⟩

/-- The accumulator of `AnalysisThread`, its request and its result. Captures are told apart by
their pointers; here the first is number 0. -/
structure CaptureTap where
  requestedRouteIndex : ℤ := 0
  requestedCaptureLength : ℕ := 0
  locateArmRequested : Bool := false
  locateCapture : Option (ℕ × LocateCapture CapturedFrame) := none
  locateRouteIndex : ℤ := -1
  locateBuffer : RawCaptureBuffer CapturedFrame := {}
  locateCapturing : Bool := false
  stored : ℕ := 0

/-- The analysis thread: waiting for its next tick, past the tick's resync, or inside `drain`. -/
inductive DrainStage
  | waiting
  | serviced
  | groups (plan : RoutingPlan) (refs : List ℕ)
  | hops (plan : RoutingPlan) (ref : ℕ) (refs : List ℕ) (left : ℕ)

/-- What a capture is taken in, as far as anything could tell: the device session, the input mode,
and the bus's counters. -/
structure Circumstances where
  session : ℕ
  synthetic : Bool
  resyncSeq : ℕ
  preparedChannels : ℕ
  drops : ℕ → ℕ

/-- The first hop of an accumulation. -/
structure Beginning extends Circumstances where
  route : TransferRoute
  first : ℕ

/-- The bus, the accumulator and the analysis thread, and how many frames there have been. -/
structure CapturePath where
  bus : CaptureBus CapturedFrame
  synthetic : Bool
  nextFrame : ℕ := 0
  tap : CaptureTap := {}
  stage : DrainStage := .waiting
  arm : Circumstances
  begun : Option Beginning := none

/-- The plan of the drain under way. -/
def DrainStage.plan : DrainStage → Option RoutingPlan
  | .waiting | .serviced => none
  | .groups plan _ | .hops plan _ _ _ => some plan

/-- The references whose groups the drain under way has not finished. -/
def DrainStage.refs : DrainStage → List ℕ
  | .waiting | .serviced => []
  | .groups _ refs => refs
  | .hops _ ref refs _ => ref :: refs

/-- `totalDrops()`: the channels the bus was prepared for. -/
def CaptureBus.totalDrops {Sample : Type} (b : CaptureBus Sample) : ℕ :=
  ∑ ch ∈ Finset.range b.preparedChannels, b.drops ch

/-! ### The accumulator -/

namespace CaptureTap

/-- Whether the hop of the route at a position goes to the accumulator. -/
def taps (t : CaptureTap) (position : ℕ) : Prop :=
  t.locateCapturing = true ∧ 0 ≤ t.locateRouteIndex ∧ (position : ℤ) = t.locateRouteIndex

instance (t : CaptureTap) (position : ℕ) : Decidable (t.taps position) :=
  inferInstanceAs (Decidable (_ ∧ _ ∧ _))

/-- The accumulator is fed a hop, and a capture is stored once it is full. -/
def feed (t : CaptureTap) (reference measurement : List CapturedFrame) : CaptureTap :=
  let buffer := t.locateBuffer.feedHop reference measurement
  if buffer.isFull then
    { t with
      locateBuffer := buffer
      locateCapture := some (t.stored, ⟨buffer.reference, buffer.measurement⟩)
      locateCapturing := false
      stored := t.stored + 1 }
  else { t with locateBuffer := buffer }

end CaptureTap

namespace CapturePath

/-- What there is to tell now. -/
def circumstances (p : CapturePath) : Circumstances where
  session := p.bus.epoch
  synthetic := p.synthetic
  resyncSeq := p.bus.resyncSeq
  preparedChannels := p.bus.preparedChannels
  drops := p.bus.drops

/-! ### The device -/

/-- The device's next block: it delivers every channel it was prepared for. -/
def nextBlock (p : CapturePath) (numSamples : ℕ) : CallbackBlock CapturedFrame where
  input := some fun ch => some (frameRun p.bus.epoch p.synthetic ch p.nextFrame numSamples)
  numChannels := p.bus.preparedChannels
  numSamples := numSamples

/-- A block of the device, or of the synthetic input. -/
def push (p : CapturePath) (numSamples : ℕ) : CapturePath :=
  { p with
    bus := p.bus.pushFromCallback (p.nextBlock numSamples)
    nextFrame := p.nextFrame + numSamples }

/-! ### The request -/

/-- `armLocateCapture(routeIndex, length)`. -/
def armLocateCapture (p : CapturePath) (routeIndex : ℤ) (length : ℕ) : CapturePath :=
  { p with
    tap := { p.tap with
      requestedRouteIndex := routeIndex
      requestedCaptureLength := length
      locateCapture := none
      locateArmRequested := true }
    arm := p.circumstances }

/-- The head of `drain`: a request is taken up. -/
def takeUp (p : CapturePath) : CapturePath :=
  if p.tap.locateArmRequested then
    { p with
      tap := { p.tap with
        locateArmRequested := false
        locateRouteIndex := p.tap.requestedRouteIndex
        locateBuffer := .arm noFrame p.tap.requestedCaptureLength
        locateCapturing := true }
      begun := none }
  else p

/-! ### The drain -/

/-- The plan as of now. -/
def plan (p : CapturePath) : RoutingPlan := planRouting p.bus.config p.bus.preparedChannels

/-- `drainRole(role, ...)`: whole hops, as many as there are when it begins. -/
def drainRole (hop : ℕ) (p : CapturePath) (role : ChannelRole) : CapturePath :=
  match p.bus.config.firstChannelWithRole role with
  | none => p
  | some ch =>
    if ch < p.bus.preparedChannels ∧ hop ≠ 0 then
      { p with bus := p.bus.discardRing ch (p.bus.availableToRead ch / hop * hop) }
    else p

/-- `drain()` up to its first group. -/
def beginDrain (hop : ℕ) (p : CapturePath) : CapturePath :=
  let p := p.takeUp
  if p.plan.routes = [] then
    { (p.drainRole hop .measurement).drainRole hop .reference with stage := .waiting }
  else { p with stage := .groups p.plan p.plan.distinctReferences }

/-- What the ring of a channel holds for `drainPaired`; a ring that is not there holds nothing. -/
def available (p : CapturePath) (ch : ℕ) : ℕ :=
  if ch < p.bus.preparedChannels then p.bus.availableToRead ch else 0

/-- `drainPaired(refChannel, plan)` up to its first hop. -/
def beginGroup (hop : ℕ) (p : CapturePath) (plan : RoutingPlan) (ref : ℕ) (refs : List ℕ) :
    CapturePath :=
  if ref < p.bus.preparedChannels ∧ hop ≠ 0 then
    let measurements := (plan.routes.filter (·.referenceChannel = ref)).map (·.measurementChannel)
    { p with
      stage := .hops plan ref refs
        (pairedHopCount (p.bus.availableToRead ref :: measurements.map p.available) hop) }
  else { p with stage := .groups plan refs }

/-- One turn of `drainPaired`'s inner loop; `scratch` is what the peeks before it filled. -/
def drainRoute (hop ref : ℕ) (scratch : ℕ → List CapturedFrame)
    (state : CaptureBus CapturedFrame × CaptureTap) (route : TransferRoute × ℕ) :
    CaptureBus CapturedFrame × CaptureTap :=
  if route.1.referenceChannel ≠ ref then state
  else
    let bus := state.1.discardRing route.1.measurementChannel hop
    if kMaxTransferFunctions ≤ route.2 then (bus, state.2)
    else if state.2.taps route.2 then
      (bus, state.2.feed (scratch ref) (scratch route.1.measurementChannel))
    else (bus, state.2)

/-- Every ring of the group has a hop to peek. -/
def groupHasHop (hop : ℕ) (p : CapturePath) (plan : RoutingPlan) (ref : ℕ) : Prop :=
  hop ≤ p.bus.availableToRead ref ∧
    ∀ route ∈ plan.routes, route.referenceChannel = ref →
      hop ≤ p.bus.availableToRead route.measurementChannel

instance (hop : ℕ) (p : CapturePath) (plan : RoutingPlan) (ref : ℕ) :
    Decidable (p.groupHasHop hop plan ref) :=
  inferInstanceAs (Decidable (_ ∧ _))

/-- The route that a hop of this group is accumulated of, if it is. -/
def tappedRoute (p : CapturePath) (plan : RoutingPlan) (ref : ℕ) : Option TransferRoute :=
  if p.tap.locateCapturing = true ∧ 0 ≤ p.tap.locateRouteIndex ∧
      p.tap.locateRouteIndex < kMaxTransferFunctions then
    plan.routes[p.tap.locateRouteIndex.toNat]?.filter (·.referenceChannel = ref)
  else none

/-- The number of the oldest frame in a channel's ring, or of the next one there will be. -/
def firstNumber (p : CapturePath) (ch : ℕ) : ℕ :=
  ((p.bus.rings ch).items.head?.map (·.number)).getD p.nextFrame

/-- What an accumulation begins in. -/
def beginning (p : CapturePath) (route : TransferRoute) : Beginning where
  toCircumstances := p.circumstances
  route := route
  first := p.firstNumber route.referenceChannel

/-- One hop of a group: peeked, discarded from every ring, and handed on. -/
def drainHop (hop : ℕ) (p : CapturePath) (plan : RoutingPlan) (ref : ℕ) (refs : List ℕ)
    (left : ℕ) : CapturePath :=
  let scratch := fun ch => (p.bus.rings ch).peek hop
  let drained := plan.routes.zipIdx.foldl (drainRoute hop ref scratch)
    (p.bus.discardRing ref hop, p.tap)
  { p with
    bus := drained.1
    tap := drained.2
    stage := .hops plan ref refs left
    begun := p.begun.orElse fun _ => (p.tappedRoute plan ref).map p.beginning }

/-- The analysis thread's next step; `now` is what the clock shows if it is read. -/
def analysis (hop : ℕ) (p : CapturePath) (now : ℕ) : CapturePath :=
  match p.stage with
  | .waiting => { p with bus := (p.bus.serviceResyncAsConsumer now).2, stage := .serviced }
  | .serviced => if p.bus.resyncPending then { p with stage := .waiting } else p.beginDrain hop
  | .groups _ [] => { p with stage := .waiting }
  | .groups plan (ref :: refs) => p.beginGroup hop plan ref refs
  | .hops plan _ refs 0 => { p with stage := .groups plan refs }
  | .hops plan ref refs (left + 1) =>
    if p.groupHasHop hop plan ref then p.drainHop hop plan ref refs left
    else { p with stage := .groups plan refs }

end CapturePath

/-! ### Circumstances move on -/

namespace Circumstances

/-- What has happened from one moment to a later one, as far as the counters show it. While the
resync sequence stands still nothing has been prepared, so that SYNTHETIC was not entered either,
and the drop counts were not reset. -/
structure Before (c d : Circumstances) : Prop where
  resyncSeq_le : c.resyncSeq ≤ d.resyncSeq
  session_eq : d.resyncSeq = c.resyncSeq → d.session = c.session
  preparedChannels_eq : d.resyncSeq = c.resyncSeq → d.preparedChannels = c.preparedChannels
  synthetic_imp : d.resyncSeq = c.resyncSeq → d.synthetic = true → c.synthetic = true
  drops_le : d.resyncSeq = c.resyncSeq → ∀ ch, c.drops ch ≤ d.drops ch
  drops_eq : d.resyncSeq = c.resyncSeq → ∀ ch, c.preparedChannels ≤ ch → d.drops ch = c.drops ch

theorem Before.refl (c : Circumstances) : c.Before c where
  resyncSeq_le := Nat.le_refl _
  session_eq _ := rfl
  preparedChannels_eq _ := rfl
  synthetic_imp _ := id
  drops_le _ _ := Nat.le_refl _
  drops_eq _ _ _ := rfl

variable {c d e : Circumstances}

/-- Equal sequences at the ends leave no room for another in the middle. -/
theorem Before.seq_eq (hcd : c.Before d) (hde : d.Before e) (h : e.resyncSeq = c.resyncSeq) :
    d.resyncSeq = c.resyncSeq ∧ e.resyncSeq = d.resyncSeq := by
  have hle := hcd.resyncSeq_le
  have hle' := hde.resyncSeq_le
  omega

theorem Before.trans (hcd : c.Before d) (hde : d.Before e) :
    c.Before e where
  resyncSeq_le := hcd.resyncSeq_le.trans hde.resyncSeq_le
  session_eq h := by
    obtain ⟨hd, he⟩ := hcd.seq_eq hde h
    exact (hde.session_eq he).trans (hcd.session_eq hd)
  preparedChannels_eq h := by
    obtain ⟨hd, he⟩ := hcd.seq_eq hde h
    exact (hde.preparedChannels_eq he).trans (hcd.preparedChannels_eq hd)
  synthetic_imp h hsyn := by
    obtain ⟨hd, he⟩ := hcd.seq_eq hde h
    exact hcd.synthetic_imp hd (hde.synthetic_imp he hsyn)
  drops_le h ch := by
    obtain ⟨hd, he⟩ := hcd.seq_eq hde h
    exact (hcd.drops_le hd ch).trans (hde.drops_le he ch)
  drops_eq h ch hch := by
    obtain ⟨hd, he⟩ := hcd.seq_eq hde h
    rw [hde.drops_eq he ch ((hcd.preparedChannels_eq hd).symm ▸ hch), hcd.drops_eq hd ch hch]

/-- The drops of the channels there are, as `totalDrops()` adds them up. -/
def totalDrops (c : Circumstances) : ℕ := ∑ ch ∈ Finset.range c.preparedChannels, c.drops ch

/-- Equal counters at the ends of a time leave no room for a change in between. -/
theorem eq_of_between (hcd : c.Before d) (hde : d.Before e)
    (hseq : e.resyncSeq = c.resyncSeq) (hdrops : e.totalDrops = c.totalDrops)
    (hsyn : e.synthetic = c.synthetic) :
    d.session = c.session ∧ d.synthetic = c.synthetic ∧ e.resyncSeq = d.resyncSeq ∧
      e.drops = d.drops := by
  obtain ⟨hd, he⟩ := hcd.seq_eq hde hseq
  refine ⟨hcd.session_eq hd, ?_, he, ?_⟩
  · cases hc : c.synthetic with
    | true => exact hde.synthetic_imp he (hsyn.trans hc)
    | false =>
      refine Bool.eq_false_of_not_eq_true fun h => ?_
      rw [hcd.synthetic_imp hd h] at hc
      cases hc
  · have hce := hcd.trans hde
    funext ch
    have hend : e.drops ch = c.drops ch := by
      by_cases hch : ch < c.preparedChannels
      · rw [totalDrops, totalDrops, hce.preparedChannels_eq hseq] at hdrops
        have hall := (Finset.sum_eq_sum_iff_of_le fun ch _ => hce.drops_le hseq ch).mp hdrops.symm
        exact (hall ch (Finset.mem_range.mpr hch)).symm
      · exact hce.drops_eq hseq ch (Nat.not_lt.mp hch)
    have hlow := hcd.drops_le hd ch
    have hhigh := hde.drops_le he ch
    omega

end Circumstances

/-! ### Plans -/

/-- What the groups of a plan need of it. -/
structure RoutingPlan.Sound (plan : RoutingPlan) : Prop where
  ascending : plan.routes.Pairwise (·.measurementChannel < ·.measurementChannel)
  apart : ∀ route ∈ plan.routes, ∀ route' ∈ plan.routes,
    route.referenceChannel ≠ route'.measurementChannel
  refs : ∀ ref ∈ plan.distinctReferences, ∃ route ∈ plan.routes, route.referenceChannel = ref

/-- The routes of a plan are between channels of the right roles, and its references are theirs. -/
structure RoutingPlan.Follows (plan : RoutingPlan) (config : ChannelConfig) : Prop where
  roles : ∀ route ∈ plan.routes, config.roles route.referenceChannel = .reference ∧
    config.roles route.measurementChannel = .measurement
  refs : ∀ ref ∈ plan.distinctReferences, ∃ route ∈ plan.routes, route.referenceChannel = ref

theorem planMeasurement_follows {config : ChannelConfig} {count m : ℕ} {plan : RoutingPlan}
    (h : plan.Follows config) : (planMeasurement config count plan m).Follows config := by
  rw [planMeasurement]
  split
  · exact h
  · rename_i hrole
    split
    · exact ⟨h.roles, h.refs⟩
    · rename_i r hr
      have hfound : isReferenceOf config (config.tfIndex m) r = true := List.find?_some hr
      simp only [isReferenceOf, Bool.and_eq_true, decide_eq_true_eq] at hfound
      constructor
      · intro route hroute
        rcases List.mem_append.mp hroute with hroute | hroute
        · exact h.roles route hroute
        · rw [List.mem_singleton.mp hroute]
          exact ⟨hfound.1, not_not.mp hrole⟩
      · intro ref href
        have hlast : (⟨config.tfIndex m, r, m⟩ : TransferRoute) ∈
            (plan.addRoute ⟨config.tfIndex m, r, m⟩).routes :=
          List.mem_append_right _ (List.mem_singleton_self _)
        simp only [RoutingPlan.addRoute] at href
        split at href
        · obtain ⟨route, hroute, heq⟩ := h.refs ref href
          exact ⟨route, List.mem_append_left _ hroute, heq⟩
        · rcases List.mem_append.mp href with href | href
          · obtain ⟨route, hroute, heq⟩ := h.refs ref href
            exact ⟨route, List.mem_append_left _ hroute, heq⟩
          · exact ⟨_, hlast, (List.mem_singleton.mp href).symm⟩

/-- A channel has one role, so no channel of a plan is both a reference and a measurement. -/
theorem planRouting_sound (config : ChannelConfig) (channelCount : ℤ) :
    (planRouting config channelCount).Sound := by
  have hfold : ∀ (chs : List ℕ) (count : ℕ) (plan : RoutingPlan), plan.Follows config →
      (chs.foldl (planMeasurement config count) plan).Follows config := by
    intro chs count
    induction chs with
    | nil => exact fun _ => id
    | cons ch chs ih => exact fun plan h => ih _ (planMeasurement_follows h)
  have h := hfold (List.range (min channelCount.toNat kMaxChannels))
    (min channelCount.toNat kMaxChannels) {}
    ⟨fun _ h => (List.not_mem_nil h).elim, fun _ h => (List.not_mem_nil h).elim⟩
  refine ⟨(planRouting_upTo config channelCount).ascending, fun route hroute route' hroute' heq => ?_,
    fun ref href => ?_⟩
  · have hreference := (h.roles route hroute).1
    rw [heq, (h.roles route' hroute').2] at hreference
    cases hreference
  · exact h.refs ref ((List.mem_insertionSort (· ≤ ·)).mp href)

end RtaTool
