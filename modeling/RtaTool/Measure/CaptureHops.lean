import RtaTool.Measure.CapturePath

/-!
# What one step does to a capture's way

The calls of `CapturePath` go through every channel of the bus and every route of a plan. What they
do is said here for one channel and for one position: a block goes to a ring, is refused or passes
it by; a hop takes the front of the rings of its group and of no other; and the accumulator is fed
by the route at its position alone.

## Main definitions

* `Written` -- a channel whose ring the next block goes to
* `PushedTo`, `SameRequest`, `AnalysisStep` -- what the steps can be
* `AnalysisKeeps`, `AnalysisFrame` -- what the analysis thread leaves alone

## Main results

* `push_effect` -- what a block does to each ring
* `drainHop_tap`, `items_drainHop_head`, `items_drainHop_of_ne` -- what a hop does
* `analysis_cases` -- the steps of the analysis thread
-/

namespace RtaTool

/-! ### What the bus does to its rings and counters -/

namespace CaptureBus

variable {Sample : Type}

section

variable (b : CaptureBus Sample)

theorem writeRing_frame (src : Option (List Sample)) (ch : ℕ) :
    b.writeRing src ch =
      { b with rings := (b.writeRing src ch).rings, drops := (b.writeRing src ch).drops } := by
  cases src <;> rfl

/-- One turn of the callback's loop concerns one channel. -/
theorem writeRing_of_ne (src : Option (List Sample)) {ch j : ℕ} (h : j ≠ ch) :
    (b.writeRing src ch).rings j = b.rings j ∧ (b.writeRing src ch).drops j = b.drops j := by
  cases src with
  | none => exact ⟨rfl, rfl⟩
  | some samples =>
    refine ⟨Function.update_of_ne h _ _, ?_⟩
    simp only [writeRing]
    split
    · rfl
    · exact Function.update_of_ne h _ _

/-- And what it does there depends on that channel alone. -/
theorem writeRing_self {b b' : CaptureBus Sample} (src : Option (List Sample)) {ch : ℕ}
    (hrings : b'.rings ch = b.rings ch) (hdrops : b'.drops ch = b.drops ch) :
    (b'.writeRing src ch).rings ch = (b.writeRing src ch).rings ch ∧
      (b'.writeRing src ch).drops ch = (b.writeRing src ch).drops ch := by
  cases src with
  | none => exact ⟨hrings, hdrops⟩
  | some samples =>
    simp only [writeRing, hrings, Function.update_self, true_and]
    split
    · exact hdrops
    · rw [Function.update_self, Function.update_self, hdrops]

/-- The callback's loop writes each channel once. -/
theorem foldl_writeRing (src : ℕ → Option (List Sample)) (b : CaptureBus Sample) (n : ℕ) :
    ∃ b', (List.range n).foldl (fun b ch => b.writeRing (src ch) ch) b = b' ∧
      b' = { b with rings := b'.rings, drops := b'.drops } ∧
      ∀ ch, b'.rings ch = (if ch < n then (b.writeRing (src ch) ch).rings ch else b.rings ch) ∧
        b'.drops ch = if ch < n then (b.writeRing (src ch) ch).drops ch else b.drops ch := by
  induction n with
  | zero => exact ⟨b, rfl, rfl, fun ch => ⟨rfl, rfl⟩⟩
  | succ n ih =>
    obtain ⟨b', hfold, hframe, hch⟩ := ih
    refine ⟨b'.writeRing (src n) n, ?_, ?_, fun ch => ?_⟩
    · rw [List.range_succ, List.foldl_append, hfold]
      rfl
    · rw [writeRing_frame b' (src n) n]
      rw [hframe]
    · by_cases hn : ch = n
      · subst hn
        obtain ⟨hrings, hdrops⟩ := hch ch
        rw [if_neg (Nat.lt_irrefl ch)] at hrings hdrops
        rw [if_pos (Nat.lt_succ_self ch), if_pos (Nat.lt_succ_self ch)]
        exact writeRing_self (src ch) hrings hdrops
      · obtain ⟨hrings, hdrops⟩ := b'.writeRing_of_ne (src n) hn
        have hlt : ch < n + 1 ↔ ch < n := by omega
        rw [hrings, hdrops]
        simp only [hlt]
        exact hch ch

theorem drainAsConsumer_frame :
    b.drainAsConsumer.2 = { b with rings := b.drainAsConsumer.2.rings } := by
  have hfold : ∀ (chs : List ℕ) (r : ℕ × CaptureBus Sample),
      (chs.foldl drainRing r).2 = { r.2 with rings := (chs.foldl drainRing r).2.rings } := by
    intro chs
    induction chs with
    | nil => exact fun _ => rfl
    | cons ch chs ih =>
      intro r
      rw [List.foldl_cons, ih]
      rfl
  exact hfold _ (0, b)

/-- What a resync leaves alone, and that it is counted. -/
structure Serviced (b b' : CaptureBus Sample) : Prop where
  config : b'.config = b.config
  active : b'.active = b.active
  attached : b'.consumerAttached = b.consumerAttached
  preparedChannels : b'.preparedChannels = b.preparedChannels
  epoch : b'.epoch = b.epoch
  drops : b'.drops = b.drops
  seq_le : b.resyncSeq ≤ b'.resyncSeq
  rings : b'.resyncSeq = b.resyncSeq → b'.rings = b.rings
  pending : b'.resyncSeq = b.resyncSeq → b'.resyncPending = b.resyncPending

theorem Serviced.refl : Serviced b b :=
  ⟨rfl, rfl, rfl, rfl, rfl, rfl, Nat.le_refl _, fun _ => rfl, fun _ => rfl⟩

theorem Serviced.trans {b c d : CaptureBus Sample} (hbc : Serviced b c) (hcd : Serviced c d) :
    Serviced b d := by
  have hsame : d.resyncSeq = b.resyncSeq →
      c.resyncSeq = b.resyncSeq ∧ d.resyncSeq = c.resyncSeq := by
    intro h
    have hle := hbc.seq_le
    have hle' := hcd.seq_le
    omega
  exact ⟨hcd.config.trans hbc.config, hcd.active.trans hbc.active,
    hcd.attached.trans hbc.attached, hcd.preparedChannels.trans hbc.preparedChannels,
    hcd.epoch.trans hbc.epoch, hcd.drops.trans hbc.drops, hbc.seq_le.trans hcd.seq_le,
    fun h => (hcd.rings (hsame h).2).trans (hbc.rings (hsame h).1),
    fun h => (hcd.pending (hsame h).2).trans (hbc.pending (hsame h).1)⟩

theorem checkWriters_serviced : Serviced b b.checkWriters := by
  rw [checkWriters]
  split
  · exact ⟨rfl, rfl, rfl, rfl, rfl, rfl, Nat.le_succ _, fun h => absurd h (Nat.succ_ne_self _),
      fun h => absurd h (Nat.succ_ne_self _)⟩
  · exact .refl b

theorem finishResync_serviced : Serviced b b.finishResync := by
  rw [finishResync, drainAsConsumer_frame]
  exact ⟨rfl, rfl, rfl, rfl, rfl, rfl, Nat.le_succ _, fun h => absurd h (Nat.succ_ne_self _),
    fun h => absurd h (Nat.succ_ne_self _)⟩

theorem noteWaiting_serviced (now : ℕ) : Serviced b (b.noteWaiting now) := by
  rw [noteWaiting]
  split <;> exact ⟨rfl, rfl, rfl, rfl, rfl, rfl, Nat.le_refl _, fun _ => rfl, fun _ => rfl⟩

theorem serviceResyncAsConsumer_serviced (now : ℕ) :
    Serviced b (b.serviceResyncAsConsumer now).2 := by
  rw [serviceResyncAsConsumer]
  refine b.checkWriters_serviced.trans ?_
  generalize b.checkWriters = c
  rw [resyncIfPending.eq_def]
  split
  · exact ⟨rfl, rfl, rfl, rfl, rfl, rfl, Nat.le_refl _, fun _ => rfl, fun _ => rfl⟩
  · have hwaiting := c.noteWaiting_serviced now
    have hcounted : Serviced (c.noteWaiting now) (c.noteWaiting now).countTimeout :=
      ⟨rfl, rfl, rfl, rfl, rfl, rfl, Nat.le_refl _, fun _ => rfl, fun _ => rfl⟩
    dsimp only
    split
    · exact hwaiting
    · split
      · exact hwaiting.trans (hcounted.trans (finishResync_serviced _))
      · exact hwaiting.trans (finishResync_serviced _)

end

end CaptureBus

namespace CapturePath

variable {p : CapturePath}

/-! ### Runs of frames -/

section

variable (session : ℕ) (synthetic : Bool)

theorem length_frameRun (ch first length : ℕ) :
    (frameRun session synthetic ch first length).length = length := by
  rw [frameRun, List.length_map, List.length_range']

theorem frameRun_append (ch first m n : ℕ) :
    frameRun session synthetic ch first m ++ frameRun session synthetic ch (first + m) n =
      frameRun session synthetic ch first (m + n) := by
  rw [frameRun, frameRun, frameRun, ← List.map_append, List.range'_append_1]

theorem take_frameRun (ch first : ℕ) {m n : ℕ} (h : m ≤ n) :
    (frameRun session synthetic ch first n).take m = frameRun session synthetic ch first m := by
  obtain ⟨k, rfl⟩ := Nat.le.dest h
  rw [← frameRun_append, List.take_left' (length_frameRun _ _ _ _ _)]

theorem drop_frameRun (ch first : ℕ) {m n : ℕ} (h : m ≤ n) :
    (frameRun session synthetic ch first n).drop m =
      frameRun session synthetic ch (first + m) (n - m) := by
  obtain ⟨k, rfl⟩ := Nat.le.dest h
  rw [← frameRun_append, List.drop_left' (length_frameRun _ _ _ _ _), Nat.add_sub_cancel_left]

end

/-! ### A block -/

/-- The next block goes to a channel's ring, unless the gate is up. -/
def Written (p : CapturePath) (ch : ℕ) : Prop :=
  p.bus.active = true ∧ ch < p.bus.preparedChannels ∧
    p.bus.config.snapshot p.bus.preparedChannels ch ≠ .unused

instance (p : CapturePath) (ch : ℕ) : Decidable (p.Written ch) :=
  inferInstanceAs (Decidable (_ ∧ _ ∧ _))

/-- What a block does to the ring of one channel. -/
inductive PushedTo (p q : CapturePath) (n ch : ℕ) : Prop
  | passed (hrings : (q.bus.rings ch).items = (p.bus.rings ch).items)
      (hdrops : q.bus.drops ch = p.bus.drops ch)
      (hnot : p.bus.resyncPending = false → p.Written ch → n = 0)
  | taken (hwritten : p.Written ch)
      (hrings : (q.bus.rings ch).items =
        (p.bus.rings ch).items ++ frameRun p.bus.epoch p.synthetic ch p.nextFrame n)
      (hdrops : q.bus.drops ch = p.bus.drops ch)
  | refused (hwritten : p.Written ch) (hn : 0 < n)
      (hdrops : q.bus.drops ch = p.bus.drops ch + n)

/-- What a block leaves alone. -/
structure SameBus (b b' : CaptureBus CapturedFrame) : Prop where
  config : b'.config = b.config
  active : b'.active = b.active
  attached : b'.consumerAttached = b.consumerAttached
  preparedChannels : b'.preparedChannels = b.preparedChannels
  epoch : b'.epoch = b.epoch
  resyncSeq : b'.resyncSeq = b.resyncSeq
  pending : b'.resyncPending = b.resyncPending

theorem push_effect (p : CapturePath) (n : ℕ) :
    SameBus p.bus (p.push n).bus ∧ ∀ ch, p.PushedTo (p.push n) n ch := by
  have hstay : ∀ q : CapturePath, q.bus.rings = p.bus.rings → q.bus.drops = p.bus.drops →
      (p.bus.resyncPending = false → ∀ ch, p.Written ch → n = 0) → ∀ ch, p.PushedTo q n ch :=
    fun q hrings hdrops hnot ch =>
      .passed (by rw [hrings]) (by rw [hdrops]) fun hp hw => hnot hp ch hw
  rw [push, nextBlock, CaptureBus.pushFromCallback.eq_def]
  by_cases hactive : p.bus.active = true
  · by_cases hempty : (p.bus.preparedChannels : ℤ) ≤ 0 ∨ (n : ℤ) ≤ 0
    · simp only [hactive, hempty, Bool.not_true, Bool.false_eq_true, if_false, if_true]
      refine ⟨⟨rfl, hactive.symm ▸ rfl, rfl, rfl, rfl, rfl, rfl⟩, hstay _ rfl rfl ?_⟩
      intro _ ch hw
      have hlt := hw.2.1
      omega
    · cases hp : p.bus.resyncPending with
      | true =>
        simp only [hactive, hempty, hp, Bool.not_true, Bool.false_eq_true, if_false, if_true]
        refine ⟨⟨rfl, hactive.symm ▸ rfl, rfl, rfl, rfl, rfl, hp.symm ▸ rfl⟩, hstay _ rfl rfl ?_⟩
        intro hfalse
        rw [hp] at hfalse
        cases hfalse
      | false =>
        simp only [hactive, hempty, hp, Bool.not_true, Bool.false_eq_true, if_false]
        obtain ⟨b', hfold, hframe, hch⟩ := CaptureBus.foldl_writeRing
          (CaptureBus.routedTo (p.bus.config.snapshot p.bus.preparedChannels) fun ch =>
            some (frameRun p.bus.epoch p.synthetic ch p.nextFrame n)) p.bus
          (p.bus.writeLimit p.bus.preparedChannels)
        have hlimit : p.bus.writeLimit p.bus.preparedChannels = p.bus.preparedChannels := by
          rw [CaptureBus.writeLimit, Int.toNat_natCast, Nat.min_self]
        rw [hlimit] at hfold hch
        rw [hlimit, hfold]
        constructor
        · rw [hframe]
          exact ⟨rfl, hactive.symm ▸ rfl, rfl, rfl, rfl, rfl, hp.symm ▸ rfl⟩
        · intro ch
          obtain ⟨hrings, hdrops⟩ := hch ch
          by_cases hlt : ch < p.bus.preparedChannels
          · rw [if_pos hlt] at hrings hdrops
            rw [CaptureBus.routedTo] at hrings hdrops
            by_cases hrole : p.bus.config.snapshot p.bus.preparedChannels ch = .unused
            · rw [if_pos hrole] at hrings hdrops
              exact .passed (congrArg _ hrings) hdrops fun _ hw => absurd hrole hw.2.2
            · rw [if_neg hrole] at hrings hdrops
              have hwritten : p.Written ch := ⟨hactive, hlt, hrole⟩
              rw [CaptureBus.writeRing_rings, Function.update_self] at hrings
              have hitems := congrArg BoundedQueue.items hrings
              rw [BoundedQueue.items_write] at hitems
              simp only [CaptureBus.writeRing] at hdrops
              cases htakes : ((p.bus.rings ch).write
                  (frameRun p.bus.epoch p.synthetic ch p.nextFrame n)).1 with
              | true =>
                rw [htakes, if_pos rfl] at hitems hdrops
                exact .taken hwritten hitems hdrops
              | false =>
                rw [htakes, if_neg Bool.false_ne_true, Function.update_self,
                  length_frameRun] at hdrops
                exact .refused hwritten (by omega) hdrops
          · rw [if_neg hlt] at hrings hdrops
            exact .passed (congrArg _ hrings) hdrops fun _ hw => absurd hw.2.1 hlt
  · rw [Bool.not_eq_true] at hactive
    simp only [hactive, Bool.not_false, if_true]
    refine ⟨⟨rfl, hactive.symm ▸ rfl, rfl, rfl, rfl, rfl, rfl⟩, hstay _ rfl rfl ?_⟩
    intro _ ch hw
    rw [hw.1] at hactive
    cases hactive

theorem push_written {n ch : ℕ} : (p.push n).Written ch ↔ p.Written ch := by
  obtain ⟨hbus, -⟩ := p.push_effect n
  rw [Written, Written, hbus.active, hbus.preparedChannels, hbus.config]

/-! ### The head of a drain -/

theorem takeUp_frame (p : CapturePath) :
    p.takeUp.bus = p.bus ∧ p.takeUp.stage = p.stage ∧
      (∀ b, p.takeUp.begun = some b → p.takeUp = p) := by
  rw [CapturePath.takeUp]
  split
  · exact ⟨rfl, rfl, nofun⟩
  · exact ⟨rfl, rfl, fun _ _ => rfl⟩

theorem drainRole_frame (hop : ℕ) (p : CapturePath) (role : ChannelRole) :
    p.drainRole hop role =
      { p with bus := { p.bus with rings := (p.drainRole hop role).bus.rings } } := by
  rw [drainRole]
  split
  · rfl
  · split <;> rfl

theorem beginDrain_eq (hop : ℕ) (p : CapturePath) :
    p.beginDrain hop =
        { p.takeUp with stage := .groups p.takeUp.plan p.takeUp.plan.distinctReferences } ∨
      p.takeUp.plan.routes = [] ∧ ∃ rings,
        p.beginDrain hop =
          { p.takeUp with bus := { p.takeUp.bus with rings := rings }, stage := .waiting } := by
  by_cases hroutes : p.takeUp.plan.routes = []
  · refine .inr ⟨hroutes, ((p.takeUp.drainRole hop .measurement).drainRole hop .reference).bus.rings,
      ?_⟩
    rw [beginDrain]
    simp only [hroutes, if_true]
    rw [drainRole_frame, drainRole_frame hop p.takeUp]
  · left
    rw [beginDrain]
    simp only [hroutes, if_false]

/-! ### One hop of a group -/

/-- The discards of a group's routes. -/
def drainGroup (hop ref : ℕ) (bus : CaptureBus CapturedFrame) (routes : List TransferRoute) :
    CaptureBus CapturedFrame :=
  routes.foldl (fun bus route =>
    if route.referenceChannel = ref then bus.discardRing route.measurementChannel hop else bus) bus

theorem drainGroup_frame (hop ref : ℕ) (bus : CaptureBus CapturedFrame)
    (routes : List TransferRoute) :
    drainGroup hop ref bus routes = { bus with rings := (drainGroup hop ref bus routes).rings } := by
  induction routes generalizing bus with
  | nil => rfl
  | cons route routes ih =>
    rw [drainGroup, List.foldl_cons]
    refine (ih _).trans ?_
    split <;> rfl

variable {routes : List TransferRoute}

theorem items_drainGroup_of_not {hop ref ch : ℕ} {bus : CaptureBus CapturedFrame}
    (h : ∀ route ∈ routes, route.referenceChannel = ref → route.measurementChannel ≠ ch) :
    ((drainGroup hop ref bus routes).rings ch).items = (bus.rings ch).items := by
  induction routes generalizing bus with
  | nil => rfl
  | cons route routes ih =>
    rw [drainGroup, List.foldl_cons]
    refine (ih fun r hr => h r (List.mem_cons_of_mem _ hr)).trans ?_
    split
    · rename_i href
      rw [CaptureBus.rings_discardRing, if_neg (h route List.mem_cons_self href).symm]
    · rfl

variable {route : TransferRoute}

theorem items_drainGroup_head {hop ref : ℕ}
    {bus : CaptureBus CapturedFrame} (href : route.referenceChannel = ref)
    (h : ∀ r ∈ routes, route.measurementChannel < r.measurementChannel) :
    ((drainGroup hop ref bus (route :: routes)).rings route.measurementChannel).items =
      (bus.rings route.measurementChannel).items.drop hop := by
  rw [drainGroup, List.foldl_cons, if_pos href]
  refine (items_drainGroup_of_not fun r hr _ => (Nat.ne_of_lt (h r hr)).symm).trans ?_
  rw [CaptureBus.rings_discardRing, if_pos rfl]

section

variable (hop ref : ℕ) (scratch : ℕ → List CapturedFrame) (routes : List (TransferRoute × ℕ))
  (state : CaptureBus CapturedFrame × CaptureTap)

theorem foldl_drainRoute_fst :
    (routes.foldl (drainRoute hop ref scratch) state).1 =
      drainGroup hop ref state.1 (routes.map Prod.fst) := by
  induction routes generalizing state with
  | nil => rfl
  | cons route routes ih =>
    rw [List.foldl_cons, ih, List.map_cons]
    show drainGroup hop ref _ _ = drainGroup hop ref
      (if route.1.referenceChannel = ref then _ else _) _
    congr 1
    rw [drainRoute]
    by_cases href : route.1.referenceChannel = ref
    · rw [if_neg (not_not.mpr href), if_pos href]
      dsimp only
      split
      · rfl
      · split <;> rfl
    · rw [if_pos href, if_neg href]

/-- Only the position that is asked for is tapped. -/
theorem foldl_drainRoute_snd (h : ∀ route ∈ routes, ¬ state.2.taps route.2) :
    (routes.foldl (drainRoute hop ref scratch) state).2 = state.2 := by
  induction routes generalizing state with
  | nil => rfl
  | cons route routes ih =>
    have hsame : (drainRoute hop ref scratch state route).2 = state.2 := by
      rw [drainRoute]
      split
      · rfl
      · dsimp only
        rw [if_neg (h route List.mem_cons_self)]
        split <;> rfl
    rw [List.foldl_cons, ih, hsame]
    intro r hr
    rw [hsame]
    exact h r (List.mem_cons_of_mem _ hr)

end

section

variable (hop : ℕ) (p : CapturePath) (plan : RoutingPlan) (ref : ℕ) (refs : List ℕ)

include hop

/-- What a hop does to the accumulator when it is position 0 that is asked for. -/
theorem drainHop_tap (left : ℕ) (hindex : p.tap.locateRouteIndex = 0) :
    (p.drainHop hop plan ref refs left).tap =
      match p.tappedRoute plan ref with
      | none => p.tap
      | some route =>
        p.tap.feed ((p.bus.rings ref).peek hop) ((p.bus.rings route.measurementChannel).peek hop) := by
  have htail : ∀ (t : CaptureTap) (routes : List TransferRoute), t.locateRouteIndex = 0 →
      ∀ x ∈ routes.zipIdx 1, ¬ t.taps x.2 := by
    intro t routes ht x hx htaps
    have hle : 1 ≤ x.2 := List.le_snd_of_mem_zipIdx hx
    have hzero : (x.2 : ℤ) = t.locateRouteIndex := htaps.2.2
    rw [ht] at hzero
    omega
  show (plan.routes.zipIdx.foldl (drainRoute hop ref fun ch => (p.bus.rings ch).peek hop)
    (p.bus.discardRing ref hop, p.tap)).2 = _
  cases hroutes : plan.routes with
  | nil =>
    have hnone : p.tappedRoute plan ref = none := by
      rw [tappedRoute, hroutes]
      split <;> rfl
    rw [hnone]
    rfl
  | cons route routes =>
    rw [List.zipIdx_cons, List.foldl_cons]
    have htapped : p.tappedRoute plan ref =
        if p.tap.locateCapturing = true ∧ route.referenceChannel = ref then some route else none := by
      rw [tappedRoute, hroutes, hindex]
      by_cases hc : p.tap.locateCapturing = true
      · simp [hc, Option.filter, kMaxTransferFunctions]
      · simp [hc]
    rw [htapped]
    by_cases htap : p.tap.locateCapturing = true ∧ route.referenceChannel = ref
    · have htaps : p.tap.taps 0 := ⟨htap.1, Int.le_of_eq hindex.symm, hindex.symm⟩
      have hstep : (drainRoute hop ref (fun ch => (p.bus.rings ch).peek hop)
          (p.bus.discardRing ref hop, p.tap) (route, 0)).2 =
          p.tap.feed ((p.bus.rings ref).peek hop)
            ((p.bus.rings route.measurementChannel).peek hop) := by
        rw [drainRoute]
        simp only [htap.2, htaps, kMaxTransferFunctions, ne_eq, not_true_eq_false, if_false, if_true,
          Nat.le_zero_eq, OfNat.ofNat_ne_zero]
      rw [if_pos htap, foldl_drainRoute_snd, hstep]
      rw [hstep]
      refine htail _ routes ?_
      rw [CaptureTap.feed]
      split <;> exact hindex
    · have hstep : (drainRoute hop ref (fun ch => (p.bus.rings ch).peek hop)
          (p.bus.discardRing ref hop, p.tap) (route, 0)).2 = p.tap := by
        rw [drainRoute]
        split
        · rfl
        · rename_i href
          have hnot : ¬ p.tap.taps 0 := fun h => htap ⟨h.1, not_not.mp href⟩
          dsimp only
          rw [if_neg hnot]
          split <;> rfl
      rw [if_neg htap, foldl_drainRoute_snd, hstep]
      rw [hstep]
      exact htail _ routes hindex

theorem drainHop_bus (left : ℕ) :
    (p.drainHop hop plan ref refs left).bus =
      drainGroup hop ref (p.bus.discardRing ref hop) plan.routes := by
  show (plan.routes.zipIdx.foldl (drainRoute hop ref fun ch => (p.bus.rings ch).peek hop)
    (p.bus.discardRing ref hop, p.tap)).1 = _
  rw [foldl_drainRoute_fst, List.zipIdx_map_fst]

theorem drainHop_frame (left : ℕ) :
    (p.drainHop hop plan ref refs left).bus =
      { p.bus with rings := (p.drainHop hop plan ref refs left).bus.rings } := by
  rw [drainHop_bus, drainGroup_frame]
  rfl

theorem drainHop_circumstances (left : ℕ) :
    (p.drainHop hop plan ref refs left).circumstances = p.circumstances := by
  rw [circumstances, drainHop_frame]
  rfl

theorem drainHop_written (left ch : ℕ) :
    (p.drainHop hop plan ref refs left).Written ch ↔ p.Written ch := by
  rw [Written, drainHop_frame]
  rfl

end

variable {plan : RoutingPlan}

/-- A hop of one group leaves the rings of a route of another alone. -/
theorem items_drainHop_of_ne (hop : ℕ) (p : CapturePath) {ref : ℕ}
    (refs : List ℕ) (left : ℕ) (hsound : plan.Sound)
    (href : ∃ route ∈ plan.routes, route.referenceChannel = ref)
    (hroutes : plan.routes = route :: routes) (hne : route.referenceChannel ≠ ref) {ch : ℕ}
    (hch : ch = route.referenceChannel ∨ ch = route.measurementChannel) :
    ((p.drainHop hop plan ref refs left).bus.rings ch).items = (p.bus.rings ch).items := by
  have hmem : route ∈ plan.routes := hroutes ▸ List.mem_cons_self
  have hlater : ∀ r ∈ routes, route.measurementChannel < r.measurementChannel := by
    have hascending := hsound.ascending
    rw [hroutes, List.pairwise_cons] at hascending
    exact hascending.1
  have hchref : ch ≠ ref := by
    rcases hch with rfl | rfl
    · exact hne
    · obtain ⟨other, hother, rfl⟩ := href
      exact (hsound.apart other hother route hmem).symm
  rw [drainHop_bus, items_drainGroup_of_not, CaptureBus.rings_discardRing, if_neg hchref]
  intro other hother hsame
  rcases hch with rfl | rfl
  · exact (hsound.apart route hmem other hother).symm
  · rw [hroutes] at hother
    rcases List.mem_cons.mp hother with rfl | hother
    · exact absurd hsame hne
    · exact (Nat.ne_of_lt (hlater other hother)).symm

/-- And those of its own first route lose a hop each. -/
theorem items_drainHop_head (hop : ℕ) (p : CapturePath) (refs : List ℕ)
    (left : ℕ) (hsound : plan.Sound) (hroutes : plan.routes = route :: routes) {ch : ℕ}
    (hch : ch = route.referenceChannel ∨ ch = route.measurementChannel) :
    ((p.drainHop hop plan route.referenceChannel refs left).bus.rings ch).items =
      (p.bus.rings ch).items.drop hop := by
  have hmem : route ∈ plan.routes := hroutes ▸ List.mem_cons_self
  rw [drainHop_bus]
  rcases hch with rfl | rfl
  · rw [items_drainGroup_of_not fun other hother _ => (hsound.apart route hmem other hother).symm,
      CaptureBus.rings_discardRing, if_pos rfl]
  · have hascending := hsound.ascending
    rw [hroutes, List.pairwise_cons] at hascending
    rw [hroutes, items_drainGroup_head rfl hascending.1, CaptureBus.rings_discardRing,
      if_neg (hsound.apart route hmem route hmem).symm]

/-! ### The accumulator's request -/

theorem feed_cases (t : CaptureTap) (r m : List CapturedFrame) :
    (t.locateBuffer.feedHop r m).isFull = false ∧
        t.feed r m = { t with locateBuffer := t.locateBuffer.feedHop r m } ∨
      (t.locateBuffer.feedHop r m).isFull = true ∧
        t.feed r m =
          { t with
            locateBuffer := t.locateBuffer.feedHop r m
            locateCapture := some (t.stored,
              ⟨(t.locateBuffer.feedHop r m).reference, (t.locateBuffer.feedHop r m).measurement⟩)
            locateCapturing := false
            stored := t.stored + 1 } := by
  rw [CaptureTap.feed]
  cases (t.locateBuffer.feedHop r m).isFull with
  | true => exact .inr ⟨rfl, rfl⟩
  | false => exact .inl ⟨rfl, rfl⟩

/-- A hop leaves the request alone, and changes the result only by storing a capture. -/
structure SameRequest (t u : CaptureTap) : Prop where
  requested : u.requestedRouteIndex = t.requestedRouteIndex
  request : u.locateArmRequested = t.locateArmRequested
  stored_le : t.stored ≤ u.stored
  capture : u.stored = t.stored → u.locateCapture = t.locateCapture

theorem SameRequest.refl (t : CaptureTap) : SameRequest t t :=
  ⟨rfl, rfl, Nat.le_refl _, fun _ => rfl⟩

theorem SameRequest.trans {t u v : CaptureTap} (htu : SameRequest t u) (huv : SameRequest u v) :
    SameRequest t v := by
  have hle := htu.stored_le
  have hle' := huv.stored_le
  exact ⟨huv.requested.trans htu.requested, huv.request.trans htu.request, hle.trans hle',
    fun h => (huv.capture (by omega)).trans (htu.capture (by omega))⟩

theorem sameRequest_feed (t : CaptureTap) (r m : List CapturedFrame) :
    SameRequest t (t.feed r m) := by
  rcases feed_cases t r m with ⟨-, h⟩ | ⟨-, h⟩ <;> rw [h]
  · exact ⟨rfl, rfl, Nat.le_refl _, fun _ => rfl⟩
  · exact ⟨rfl, rfl, Nat.le_succ _, fun h => absurd h (Nat.succ_ne_self _)⟩

theorem sameRequest_foldl (hop ref : ℕ) (scratch : ℕ → List CapturedFrame)
    (routes : List (TransferRoute × ℕ)) (state : CaptureBus CapturedFrame × CaptureTap) :
    SameRequest state.2 (routes.foldl (drainRoute hop ref scratch) state).2 := by
  induction routes generalizing state with
  | nil => exact .refl _
  | cons route routes ih =>
    rw [List.foldl_cons]
    refine SameRequest.trans ?_ (ih _)
    rw [drainRoute]
    split
    · exact .refl _
    · dsimp only
      split
      · exact .refl _
      · split
        · exact sameRequest_feed _ _ _
        · exact .refl _

theorem tappedRoute_eq_some {ref : ℕ} (hindex : p.tap.locateRouteIndex = 0) :
    p.tappedRoute plan ref = some route ↔
      p.tap.locateCapturing = true ∧ plan.routes.head? = some route ∧
        route.referenceChannel = ref := by
  rw [tappedRoute, hindex, List.head?_eq_getElem?]
  by_cases hc : p.tap.locateCapturing = true
  · simp [hc, kMaxTransferFunctions, Option.filter_eq_some_iff]
  · simp [hc]

/-! ### The steps of the analysis thread -/

section

variable (hop : ℕ) (p : CapturePath)

include hop

theorem beginGroup_eq (plan : RoutingPlan) (ref : ℕ) (refs : List ℕ) :
    ∃ stage : DrainStage, p.beginGroup hop plan ref refs = { p with stage := stage } ∧
      stage.plan = some plan ∧ ∀ r ∈ stage.refs, r ∈ ref :: refs := by
  rw [beginGroup]
  split
  · exact ⟨_, rfl, rfl, fun r hr => hr⟩
  · exact ⟨_, rfl, rfl, fun r hr => List.mem_cons_of_mem _ hr⟩

/-- The steps of the analysis thread, with what each comes from. -/
inductive AnalysisStep (hop : ℕ) (p : CapturePath) (now : ℕ) : CapturePath → Prop
  | service (hstage : p.stage = .waiting) :
      AnalysisStep hop p now
        { p with bus := (p.bus.serviceResyncAsConsumer now).2, stage := .serviced }
  | moves (stage : DrainStage)
      (h : ∀ plan, stage.plan = some plan → p.stage.plan = some plan ∧
        ∀ ref ∈ stage.refs, ref ∈ p.stage.refs) :
      AnalysisStep hop p now { p with stage := stage }
  | beginDrain (hstage : p.stage = .serviced) (hpending : p.bus.resyncPending = false) :
      AnalysisStep hop p now (p.beginDrain hop)
  | hop (plan ref refs left) (hstage : p.stage = .hops plan ref refs (left + 1))
      (hhas : p.groupHasHop hop plan ref) :
      AnalysisStep hop p now (p.drainHop hop plan ref refs left)

theorem analysis_cases (now : ℕ) :
    AnalysisStep hop p now (p.analysis hop now) := by
  rw [analysis.eq_def]
  split
  case h_1 hstage => exact .service hstage
  case h_2 hstage =>
    split
    · exact .moves .waiting nofun
    · rename_i hpending
      exact .beginDrain hstage (Bool.eq_false_of_not_eq_true hpending)
  case h_3 => exact .moves .waiting nofun
  case h_4 plan ref refs hstage =>
    obtain ⟨stage, heq, hplan, hrefs⟩ := beginGroup_eq hop p plan ref refs
    rw [heq]
    refine .moves stage fun plan' h => ?_
    rw [hstage]
    exact ⟨hplan.symm.trans h, hrefs⟩
  case h_5 plan ref refs hstage =>
    refine .moves (.groups plan refs) fun plan' h => ?_
    rw [hstage]
    exact ⟨h, fun r hr => List.mem_cons_of_mem _ hr⟩
  case h_6 plan ref refs left hstage =>
    split
    · rename_i hhas
      exact .hop plan ref refs left hstage hhas
    · refine .moves (.groups plan refs) fun plan' h => ?_
      rw [hstage]
      exact ⟨h, fun r hr => List.mem_cons_of_mem _ hr⟩

/-! ### What it keeps -/

/-- What a step of the analysis thread leaves as it is. -/
structure AnalysisKeeps (p q : CapturePath) : Prop where
  epoch : q.bus.epoch = p.bus.epoch
  synthetic : q.synthetic = p.synthetic
  plan : q.plan = p.plan
  arm : q.arm = p.arm

omit hop in
theorem service_keeps (p : CapturePath) (now : ℕ) :
    AnalysisKeeps p { p with bus := (p.bus.serviceResyncAsConsumer now).2 } := by
  have h := p.bus.serviceResyncAsConsumer_serviced now
  refine ⟨h.epoch, rfl, ?_, rfl⟩
  simp only [CapturePath.plan, h.config, h.preparedChannels]

omit hop in
theorem takeUp_keeps (p : CapturePath) : AnalysisKeeps p p.takeUp := by
  rw [CapturePath.takeUp]
  split <;> exact ⟨rfl, rfl, rfl, rfl⟩

theorem beginDrain_keeps : AnalysisKeeps p (p.beginDrain hop) := by
  have htaken := p.takeUp_keeps
  rcases beginDrain_eq hop p with heq | ⟨-, rings, heq⟩ <;> rw [heq] <;>
    exact ⟨htaken.epoch, htaken.synthetic, htaken.plan, htaken.arm⟩

theorem drainHop_keeps (plan : RoutingPlan) (ref : ℕ)
    (refs : List ℕ) (left : ℕ) : AnalysisKeeps p (p.drainHop hop plan ref refs left) := by
  refine ⟨?_, rfl, ?_, rfl⟩
  · rw [drainHop_frame]
  · rw [CapturePath.plan, drainHop_frame]
    rfl

theorem analysis_keeps (now : ℕ) :
    AnalysisKeeps p (p.analysis hop now) := by
  have hcases := analysis_cases hop p now
  generalize p.analysis hop now = q at hcases ⊢
  cases hcases with
  | service =>
    have h := service_keeps p now
    exact ⟨h.epoch, rfl, h.plan, rfl⟩
  | moves stage h => exact ⟨rfl, rfl, rfl, rfl⟩
  | beginDrain => exact p.beginDrain_keeps hop
  | hop plan ref refs left hstage hhas => exact p.drainHop_keeps hop plan ref refs left

end

/-- And where its plan, its accumulation and its result come from once a request has been taken
up. -/
structure AnalysisFrame (p q : CapturePath) : Prop where
  planned : q.tap.locateArmRequested = false → ∀ plan, q.stage.plan = some plan →
    (p.tap.locateArmRequested = false ∧ p.stage.plan = some plan) ∨ plan = p.plan
  begun : q.tap.locateArmRequested = false → ∀ b, q.begun = some b →
    p.tap.locateArmRequested = false ∧ (p.begun = some b ∨ p.begun = none ∧
      b.toCircumstances = p.circumstances ∧ q.circumstances = p.circumstances ∧
        ∃ plan, p.stage.plan = some plan ∧ plan.routes.head? = some b.route)
  capturing : p.tap.locateArmRequested = false → q.tap.locateCapturing = true →
    p.tap.locateCapturing = true
  stored : p.tap.locateArmRequested = false → q.tap.locateCapture = p.tap.locateCapture ∨
    p.tap.locateCapturing = true ∧ q.circumstances = p.circumstances

/-- Where the accumulator is left alone, the drain may move on. -/
theorem analysisFrame_of_tap {q : CapturePath} (htap : q.tap = p.tap) (hbegun : q.begun = p.begun)
    (hstage : ∀ plan, q.stage.plan = some plan → p.stage.plan = some plan) :
    AnalysisFrame p q := by
  refine ⟨fun hrequest plan hplan => .inl ⟨?_, hstage plan hplan⟩, fun hrequest b hb => ⟨?_, .inl ?_⟩,
    fun _ => ?_, fun _ => .inl ?_⟩
  · exact htap ▸ hrequest
  · exact htap ▸ hrequest
  · exact hbegun ▸ hb
  · exact htap ▸ id
  · rw [htap]

/-- A request is taken up with a fresh plan and nothing accumulated. -/
theorem beginDrain_analysisFrame (hop : ℕ) (p : CapturePath) :
    AnalysisFrame p (p.beginDrain hop) := by
  have hplan := p.takeUp_keeps.plan
  have htaken : AnalysisFrame p { p.takeUp with stage := .waiting } := by
    rw [CapturePath.takeUp]
    split
    · rename_i hrequest
      have hnot : ¬ p.tap.locateArmRequested = false := by
        rw [hrequest]
        exact nofun
      exact ⟨fun _ _ => nofun, fun _ _ => nofun, fun h => absurd h hnot, fun h => absurd h hnot⟩
    · exact analysisFrame_of_tap rfl rfl nofun
  rcases beginDrain_eq hop p with heq | ⟨-, rings, heq⟩
  · rw [heq]
    refine { htaken with planned := fun _ plan h => .inr ?_ }
    cases h
    exact hplan
  · rw [heq]
    exact { htaken with planned := fun _ _ => nofun }

theorem drainHop_analysisFrame (hop : ℕ) {ref left : ℕ} {refs : List ℕ}
    (hstage : p.stage = .hops plan ref refs (left + 1))
    (hindex : p.tap.locateArmRequested = false → p.tap.locateRouteIndex = 0) :
    AnalysisFrame p (p.drainHop hop plan ref refs left) := by
  have hplan : p.stage.plan = some plan := by rw [hstage]; rfl
  have hcircumstances := drainHop_circumstances hop p plan ref refs left
  have hsame : SameRequest p.tap (p.drainHop hop plan ref refs left).tap :=
    sameRequest_foldl hop ref _ _ (p.bus.discardRing ref hop, p.tap)
  refine ⟨fun hrequest plan' h => ?_, fun hrequest b hb => ?_, fun hrequest hcapturing => ?_,
    fun hrequest => ?_⟩
  · cases h
    exact .inl ⟨hsame.request ▸ hrequest, hplan⟩
  · rw [hsame.request] at hrequest
    refine ⟨hrequest, ?_⟩
    change p.begun.orElse _ = some b at hb
    cases hbegun : p.begun with
    | some b' =>
      rw [hbegun] at hb
      exact .inl hb
    | none =>
      rw [hbegun] at hb
      obtain ⟨route, hroute, rfl⟩ := Option.map_eq_some_iff.mp hb
      exact .inr ⟨rfl, rfl, hcircumstances, plan, hplan,
        ((tappedRoute_eq_some (hindex hrequest)).mp hroute).2.1⟩
  · rw [drainHop_tap hop p plan ref refs left (hindex hrequest)] at hcapturing
    cases hroute : p.tappedRoute plan ref with
    | none =>
      rw [hroute] at hcapturing
      exact hcapturing
    | some route => exact ((tappedRoute_eq_some (hindex hrequest)).mp hroute).1
  · rw [drainHop_tap hop p plan ref refs left (hindex hrequest)]
    cases hroute : p.tappedRoute plan ref with
    | none => exact .inl rfl
    | some route =>
      exact .inr ⟨((tappedRoute_eq_some (hindex hrequest)).mp hroute).1, hcircumstances⟩

theorem analysis_frame (hop now : ℕ)
    (hindex : p.tap.locateArmRequested = false → p.tap.locateRouteIndex = 0) :
    AnalysisFrame p (p.analysis hop now) := by
  have hcases := analysis_cases hop p now
  generalize p.analysis hop now = q at hcases ⊢
  cases hcases with
  | service => exact analysisFrame_of_tap rfl rfl nofun
  | moves stage h => exact analysisFrame_of_tap rfl rfl fun plan hplan => (h plan hplan).1
  | beginDrain => exact beginDrain_analysisFrame hop p
  | hop plan ref refs left hstage _ => exact drainHop_analysisFrame hop hstage hindex

end CapturePath

end RtaTool
