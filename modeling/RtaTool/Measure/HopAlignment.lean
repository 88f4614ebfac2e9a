import RtaTool.Measure.CaptureThreads

/-!
# Hops that belong together

A transfer function compares a hop of its reference channel with a hop of its measurement channel,
so both have to cover the same frames. Nothing in the rings says which frames they hold: the pair
is right only because the two rings were given the same blocks and have been emptied equally.

Much can part them. A ring that is full refuses a block the other takes; a role that changes while
a block is in flight or between the resync and the plan routes a ring the other blocks never
reached; `drainRole` empties each role's ring by itself, and a block may come in between; a resync
on the timeout may drain around a block in flight. After any of these only a resync that leaves
every ring empty, with no block in flight, brings the two together again.

`GroupKept` asks for what is left: that at the moment `drainPaired` counts the hops of a group, no
block since the last such resync went to only one ring of a pair, and equally much has been
discarded from both. Everything else may happen in any order.

## Main definitions

* `PushesAligned` -- the property, on steps
* `GroupKept` -- the condition, on steps
* `DrainInv`, `HopInv` -- the invariant

## Main results

* `push_aligned` -- the property along every run that meets the condition
* `overrun_shifts_pair` -- a run that does not
-/

namespace RtaTool

/-! ### The property and the condition -/

/-- The channels of the pair the consumer is about to hand on. -/
def ConsumerPc.pushed : ConsumerPc → Option (ℕ × ℕ)
  | .drain (.pushing g _ route _) => some (g.ref, route.measurementChannel)
  | _ => none

/-- The group whose hops the consumer is about to count, if there will be any, and what it found in
the rings. -/
def ConsumerPc.counted (hop : ℕ) : ConsumerPc → Option DrainGroup
  | .drain (.hopCount g available) => if pairedHopCount available hop = 0 then none else some g
  | _ => none

namespace CaptureRun

/-- The two hops handed on cover the same frames. -/
def PushesAligned (s : CaptureRun) (_ : CaptureAct) (_ : CaptureRun) : Prop :=
  ∀ pair ∈ s.con.pushed, s.scratch pair.1 = s.scratch pair.2

/-- Since the last resync that left every ring empty and no block in flight, every block went to
both rings or to neither, and equally much has been discarded from both. -/
def PairKept (s : CaptureRun) (r m : ℕ) : Prop :=
  (∀ b ∈ s.blocks, r ∈ b.takenBy ↔ m ∈ b.takenBy) ∧ s.consumed r = s.consumed m

/-- When hops of a group are counted, its pairs are kept, as far as they will be handed on, and none
of its routes goes from the reference to itself. -/
def GroupKept (hop : ℕ) (s : CaptureRun) (a : CaptureAct) (_ : CaptureRun) : Prop :=
  a.isConsumer → ∀ g ∈ s.con.counted hop, (∀ route ∈ g.routes, route.1.measurementChannel ≠ g.ref) ∧
    ∀ route ∈ g.routes, route.2 < kMaxTransferFunctions →
      s.PairKept g.ref route.1.measurementChannel

instance (s : CaptureRun) (a : CaptureAct) (t : CaptureRun) : Decidable (PushesAligned s a t) :=
  inferInstanceAs (Decidable (∀ pair ∈ s.con.pushed, _))

instance (s : CaptureRun) (r m : ℕ) : Decidable (s.PairKept r m) :=
  inferInstanceAs (Decidable (_ ∧ _))

instance (hop : ℕ) (s : CaptureRun) (a : CaptureAct) (t : CaptureRun) :
    Decidable (GroupKept hop s a t) :=
  inferInstanceAs (Decidable (_ → ∀ g ∈ s.con.counted hop, _))

/-! ### What has gone through the rings -/

/-- The frames of the blocks that have returned, as far as a channel's ring took them. -/
def settled (blocks : List TakenBlock) (ch : ℕ) : List ℕ :=
  blocks.flatMap fun b => if ch ∈ b.takenBy then b.frames else []

theorem settled_append (blocks : List TakenBlock) (b : TakenBlock) (ch : ℕ) :
    settled (blocks ++ [b]) ch = settled blocks ch ++ if ch ∈ b.takenBy then b.frames else [] := by
  rw [settled, List.flatMap_append, List.flatMap_singleton]
  rfl

theorem settled_congr {blocks : List TakenBlock} {r m : ℕ}
    (h : ∀ b ∈ blocks, r ∈ b.takenBy ↔ m ∈ b.takenBy) : settled blocks r = settled blocks m := by
  refine List.flatMap_congr fun b hb => ?_
  simp only [h b hb]

end CaptureRun

/-- The frames of the block in flight, if a channel's ring has taken it. -/
def CallbackPc.inFlight (pc : CallbackPc) (ch : ℕ) : List ℕ :=
  match pc with
  | .writing f _ _ _ taken => if ch ∈ taken then f.frames else []
  | _ => []

/-- There is one block in flight at most, for all channels. -/
theorem CallbackPc.exists_inFlight (pc : CallbackPc) :
    ∃ ahead, ∀ ch, pc.inFlight ch = [] ∨ pc.inFlight ch = ahead := by
  cases pc with
  | writing f roles limit c taken =>
    refine ⟨f.frames, fun ch => ?_⟩
    rw [inFlight]
    split
    · exact .inr rfl
    · exact .inl rfl
  | _ => exact ⟨[], fun _ => .inl rfl⟩

namespace CaptureRun

/-- Each ring is what went into it, less what was discarded, since the last clean resync. -/
structure Accounted (s : CaptureRun) : Prop where
  holds : ∀ ch < kMaxChannels,
    (s.bus.rings ch).Holds (settled s.blocks ch ++ s.cb.inFlight ch) (s.consumed ch)
  taken_lt : ∀ f roles limit ch taken, s.cb = .writing f roles limit ch taken → ∀ j ∈ taken, j < ch

variable {b : CaptureBus ℕ} {s : CaptureRun}

theorem accounted_start (h : ∀ ch, (b.rings ch).items = []) :
    Accounted (start b) :=
  ⟨fun ch _ => BoundedQueue.holds_of_items_nil (h ch), nofun⟩

/-- The write of one ring: its account grows by the block if it takes it, and the other rings and
their accounts stay. -/
theorem holds_writeRing {src : Option (List ℕ)} {f : FrameBlock}
    {c ch consumed : ℕ} {past : List ℕ} {taken : List ℕ} (hlt : ∀ j ∈ taken, j < c)
    (hsrc : src = none ∨ src = some f.frames)
    (h : (b.rings ch).Holds (past ++ if ch ∈ taken then f.frames else []) consumed) :
    ((b.writeRing src c).rings ch).Holds
      (past ++ if ch ∈ (if b.takes src c then c :: taken else taken) then f.frames else [])
      consumed := by
  rcases hsrc with rfl | rfl
  · exact h
  · by_cases hc : ch = c
    · subst hc
      have hnot : ch ∉ taken := fun hmem => absurd (hlt ch hmem) (Nat.lt_irrefl ch)
      rw [if_neg hnot, List.append_nil] at h
      have hwritten := h.write f.frames
      rw [CaptureBus.writeRing_rings, Function.update_self]
      cases htakes : b.takes (some f.frames) ch with
      | false =>
        have hrefused : ((b.rings ch).write f.frames).1 = false := htakes
        rw [hrefused] at hwritten
        simpa [hnot] using hwritten
      | true =>
        have haccepted : ((b.rings ch).write f.frames).1 = true := htakes
        rw [haccepted] at hwritten
        simpa using hwritten
    · have hmem : (ch ∈ if b.takes (some f.frames) c then c :: taken else taken) ↔
          ch ∈ taken := by
        split
        · exact List.mem_cons.trans (or_iff_right hc)
        · exact Iff.rfl
      rw [CaptureBus.writeRing_rings, Function.update_of_ne hc]
      simp only [hmem]
      exact h

theorem Accounted.callback {s t : CaptureRun} (hs : Accounted s) (h : CallbackStep s t) :
    Accounted t := by
  -- a step that moves no frame
  have hmove : ∀ cb : CallbackPc, (∀ ch, cb.inFlight ch = s.cb.inFlight ch) →
      (∀ f roles limit ch taken, cb ≠ .writing f roles limit ch taken) →
      Accounted { s with cb := cb } := fun _ hsame hout =>
    ⟨fun ch hch => (hsame ch).symm ▸ hs.holds ch hch,
      fun f roles limit ch taken hcb => absurd hcb (hout f roles limit ch taken)⟩
  cases h with
  | leave f h => exact hmove _ (fun ch => by rw [h]; rfl) nofun
  | see f h => exact hmove _ (fun ch => by rw [h]; rfl) nofun
  | closed f h => exact hmove _ (fun ch => by rw [h]; rfl) nofun
  | pass f h =>
    have hpass := hmove (.snapshotting f []) (fun ch => by rw [h]; rfl) nofun
    exact ⟨hpass.holds, hpass.taken_lt⟩
  | count f h =>
    have hcount := hmove (.gateCounted f) (fun ch => by rw [h]; rfl) nofun
    exact ⟨hcount.holds, hcount.taken_lt⟩
  | refuse f h =>
    have hrefuse := hmove .idle (fun ch => by rw [h]; rfl) nofun
    exact ⟨hrefuse.holds, hrefuse.taken_lt⟩
  | snapshot f roles role h => exact hmove _ (fun ch => by rw [h]; rfl) nofun
  | limit f roles n h =>
    refine ⟨fun ch hch => ?_, fun f roles limit ch taken hcb j hj => ?_⟩
    · have hholds := hs.holds ch hch
      rw [h] at hholds
      exact hholds
    · cases hcb
      exact (List.not_mem_nil hj).elim
  | write f roles n c taken src h hsrc =>
    have hlt := hs.taken_lt f roles n c taken h
    refine ⟨fun ch hch => ?_, fun f' roles' limit' c' taken' hcb j hj => ?_⟩
    · have hholds := hs.holds ch hch
      rw [h] at hholds
      exact holds_writeRing hlt hsrc hholds
    · cases hcb
      split at hj
      · rcases List.mem_cons.mp hj with rfl | hj
        · exact Nat.lt_succ_self _
        · exact (hlt j hj).trans (Nat.lt_succ_self c)
      · exact (hlt j hj).trans (Nat.lt_succ_self c)
  | finish f roles n c taken h =>
    refine ⟨fun ch hch => ?_, nofun⟩
    have hholds := hs.holds ch hch
    rw [h] at hholds
    show BoundedQueue.Holds _ (settled (s.blocks ++ [_]) ch ++ []) _
    rw [settled_append, List.append_nil]
    exact hholds

theorem Accounted.discard (hs : Accounted s) (ch count : ℕ) :
    Accounted (s.discard ch count) := by
  refine ⟨fun j hj => ?_, hs.taken_lt⟩
  show BoundedQueue.Holds (Function.update s.bus.rings ch _ j) _ (Function.update s.consumed ch _ j)
  by_cases hjc : j = ch
  · subst hjc
    rw [Function.update_self, Function.update_self]
    exact (hs.holds j hj).discard count
  · rw [Function.update_of_ne hjc, Function.update_of_ne hjc]
    exact hs.holds j hj

/-- When a resync leaves every ring empty and no block in flight, the account begins anew. -/
theorem Accounted.lowerGate (hs : Accounted s) (timedOut : Bool) (largest : ℕ) :
    Accounted (s.lowerGate timedOut largest) := by
  refine ⟨fun ch hch => ?_, hs.taken_lt⟩
  show (s.bus.rings ch).Holds (settled (if _ then _ else _) ch ++ s.cb.inFlight ch)
    ((if _ then _ else _ : ℕ → ℕ) ch)
  by_cases hclean : s.RingsEmpty ∧ ¬ s.cb.Inside
  · have hflight : s.cb.inFlight ch = [] := by
      have hout := hclean.2
      cases hcb : s.cb with
      | writing f roles limit c taken =>
        rw [hcb] at hout
        exact absurd trivial hout
      | _ => rfl
    rw [if_pos hclean, if_pos hclean, hflight]
    exact BoundedQueue.holds_of_items_nil (hclean.1 ch hch)
  · rw [if_neg hclean, if_neg hclean]
    exact hs.holds ch hch

end CaptureRun

/-! ### What holds at each point of the drain -/

namespace DrainGroup

theorem mem_routes {g : DrainGroup} {route : TransferRoute × ℕ} (h : route ∈ g.routes) :
    route.1 ∈ g.plan.routes ∧ route.1.referenceChannel = g.ref := by
  obtain ⟨hmem, href⟩ := List.mem_filter.mp h
  exact ⟨List.fst_mem_of_mem_zipIdx hmem, of_decide_eq_true href⟩

theorem routes_pairwise {g : DrainGroup}
    (h : g.plan.routes.Pairwise (·.measurementChannel < ·.measurementChannel)) :
    g.routes.Pairwise fun p q => p.1.measurementChannel < q.1.measurementChannel := by
  refine List.Pairwise.filter _ ?_
  rw [← List.zipIdx_map_fst 0 g.plan.routes, List.pairwise_map] at h
  exact h

end DrainGroup

namespace CaptureRun

section

variable (hop : ℕ) (rings scratch : ℕ → List ℕ)

/-- The rings of a group agree for so many hops, as far as its routes have an engine. -/
structure Aligned (g : DrainGroup) (hops : ℕ) : Prop where
  ne_ref : ∀ route ∈ g.routes, route.1.measurementChannel ≠ g.ref
  agree : ∀ route ∈ g.routes, route.2 < kMaxTransferFunctions →
    AgreeUpTo (hops * hop) (rings g.ref) (rings route.1.measurementChannel)

/-- What was sampled of some routes, and of the reference, is still there. -/
def Sampled (g : DrainGroup) (done : List (TransferRoute × ℕ)) (available : List ℕ) : Prop :=
  (∃ a ∈ available, a ≤ (rings g.ref).length) ∧
    ∀ route ∈ done, ∃ a ∈ available, a ≤ (rings route.1.measurementChannel).length

/-- The scratch of some routes shows the reference's hop. -/
def Peeked (g : DrainGroup) (done : List (TransferRoute × ℕ)) : Prop :=
  ∀ route ∈ done, route.2 < kMaxTransferFunctions →
    scratch g.ref = scratch route.1.measurementChannel

/-- Halfway through the discards of a hop: the reference has been discarded, and so have the routes
before `todo`. -/
structure Discarding (g : DrainGroup) (hops : ℕ) (todo : List (TransferRoute × ℕ)) : Prop where
  ne_ref : ∀ route ∈ g.routes, route.1.measurementChannel ≠ g.ref
  peeked : Peeked scratch g g.routes
  split : ∃ done, g.routes = done ++ todo ∧
    ∀ route ∈ done, route.2 < kMaxTransferFunctions →
      AgreeUpTo (hops * hop) (rings g.ref) (rings route.1.measurementChannel)
  ahead : ∀ route ∈ todo, route.2 < kMaxTransferFunctions →
    AgreeUpTo (hops * hop) (rings g.ref) ((rings route.1.measurementChannel).drop hop)

/-- What holds at each point of `drain`. A plan only names channels there are. Once hops have been
counted, the rings of the group agree for as many; within a hop, the scratches do. -/
def DrainInv : DrainPc → Prop
  | .planning count plan pc =>
    count ≤ kMaxChannels ∧
      match pc with
      | .role m | .transfer m => m < count ∧ plan.UpTo count m
      | .referenceRole m _ r | .referenceTransfer m _ r =>
        m < count ∧ r < count ∧ plan.UpTo count m
  | .groups plan _ => plan.UpTo kMaxChannels kMaxChannels
  | .refRing g | .refSampling g => g.plan.UpTo kMaxChannels kMaxChannels
  | .routeRing g todo available =>
    g.plan.UpTo kMaxChannels kMaxChannels ∧
      ∃ done, g.routes = done ++ todo ∧ Sampled rings g done available
  | .routeSampling g route todo available =>
    g.plan.UpTo kMaxChannels kMaxChannels ∧
      ∃ done index, g.routes = done ++ (route, index) :: todo ∧ Sampled rings g done available
  | .hopCount g available =>
    g.plan.UpTo kMaxChannels kMaxChannels ∧ Sampled rings g g.routes available
  | .refPeeking g hops =>
    g.plan.UpTo kMaxChannels kMaxChannels ∧ (hops ≠ 0 → Aligned hop rings g hops)
  | .routePeeking g hops todo =>
    g.plan.UpTo kMaxChannels kMaxChannels ∧ Aligned hop rings g (hops + 1) ∧
      (hop ≤ (rings g.ref).length ∧ scratch g.ref = (rings g.ref).take hop) ∧
      ∃ done, g.routes = done ++ todo ∧ Peeked scratch g done
  | .refDiscarding g hops =>
    g.plan.UpTo kMaxChannels kMaxChannels ∧ Aligned hop rings g (hops + 1) ∧
      Peeked scratch g g.routes
  | .routeDiscarding g hops todo =>
    g.plan.UpTo kMaxChannels kMaxChannels ∧ Discarding hop rings scratch g hops todo
  | .pushing g hops route todo =>
    g.plan.UpTo kMaxChannels kMaxChannels ∧ Discarding hop rings scratch g hops todo ∧
      ∃ index < kMaxTransferFunctions, (route, index) ∈ g.routes
  | _ => True

end

section

variable {hop : ℕ} {rings rings' scratch : ℕ → List ℕ}

variable {g : DrainGroup}

theorem Aligned.grow {hops : ℕ} (h : Aligned hop rings g hops)
    (hgrow : ∀ ch, rings ch <+: rings' ch) : Aligned hop rings' g hops :=
  ⟨h.ne_ref, fun route hroute hindex =>
    (h.agree route hroute hindex).extend (hgrow _) (hgrow _)⟩

theorem Sampled.grow {done : List (TransferRoute × ℕ)} {available : List ℕ}
    (h : Sampled rings g done available) (hgrow : ∀ ch, rings ch <+: rings' ch) :
    Sampled rings' g done available := by
  refine ⟨?_, fun route hroute => ?_⟩
  · obtain ⟨a, ha, hle⟩ := h.1
    exact ⟨a, ha, hle.trans (hgrow _).length_le⟩
  · obtain ⟨a, ha, hle⟩ := h.2 route hroute
    exact ⟨a, ha, hle.trans (hgrow _).length_le⟩

variable {route : TransferRoute × ℕ}

theorem Sampled.snoc {done : List (TransferRoute × ℕ)} {available : List ℕ}
    (h : Sampled rings g done available) {a : ℕ}
    (ha : a ≤ (rings route.1.measurementChannel).length) :
    Sampled rings g (done ++ [route]) (available ++ [a]) := by
  obtain ⟨⟨c, hc, hle⟩, hdone⟩ := h
  refine ⟨⟨c, List.mem_append_left _ hc, hle⟩, fun other hother => ?_⟩
  rcases List.mem_append.mp hother with hother | hother
  · obtain ⟨d, hd, hdle⟩ := hdone other hother
    exact ⟨d, List.mem_append_left _ hd, hdle⟩
  · obtain rfl := List.mem_singleton.mp hother
    exact ⟨a, List.mem_append_right _ (List.mem_singleton_self a), ha⟩

variable {plan : RoutingPlan} {done todo : List (TransferRoute × ℕ)} {hops : ℕ}

theorem Discarding.grow {todo : List (TransferRoute × ℕ)}
    (h : Discarding hop rings scratch g hops todo) (hgrow : ∀ ch, rings ch <+: rings' ch) :
    Discarding hop rings' scratch g hops todo := by
  refine ⟨h.ne_ref, h.peeked, ?_, fun route hroute hindex => ?_⟩
  · obtain ⟨done, hsplit, hdone⟩ := h.split
    exact ⟨done, hsplit, fun route hroute hindex =>
      (hdone route hroute hindex).extend (hgrow _) (hgrow _)⟩
  · refine (h.ahead route hroute hindex).extend (hgrow _) ?_
    obtain ⟨more, hmore⟩ := hgrow route.1.measurementChannel
    rw [← hmore, List.drop_append]
    exact List.prefix_append _ _

/-- The callback only ever adds to a ring, and the drain counts on nothing else. -/
theorem DrainInv.grow {pc : DrainPc} (h : DrainInv hop rings scratch pc)
    (hgrow : ∀ ch, rings ch <+: rings' ch) : DrainInv hop rings' scratch pc := by
  cases pc with
  | gateCheck | counting | searching | roleRing | roleSampling | rolePeeking | roleDiscarding =>
    trivial
  | planning | groups | refRing | refSampling => exact h
  | routeRing g todo available =>
    obtain ⟨hplan, done, hsplit, hsampled⟩ := h
    exact ⟨hplan, done, hsplit, hsampled.grow hgrow⟩
  | routeSampling g route todo available =>
    obtain ⟨hplan, done, index, hsplit, hsampled⟩ := h
    exact ⟨hplan, done, index, hsplit, hsampled.grow hgrow⟩
  | hopCount g available => exact ⟨h.1, h.2.grow hgrow⟩
  | refPeeking g hops => exact ⟨h.1, fun hne => (h.2 hne).grow hgrow⟩
  | routePeeking g hops todo =>
    obtain ⟨hplan, haligned, ⟨hlen, hfront⟩, hdone⟩ := h
    obtain ⟨more, hmore⟩ := hgrow g.ref
    refine ⟨hplan, haligned.grow hgrow, ⟨hlen.trans (hgrow _).length_le, ?_⟩, hdone⟩
    rw [hfront, ← hmore, List.take_append_of_le_length hlen]
  | refDiscarding g hops => exact ⟨h.1, h.2.1.grow hgrow, h.2.2⟩
  | routeDiscarding g hops todo => exact ⟨h.1, h.2.grow hgrow⟩
  | pushing g hops route todo => exact ⟨h.1, h.2.1.grow hgrow, h.2.2⟩

/-! ### The steps of the drain -/

theorem planNext_inv {count m : ℕ} (hcount : count ≤ kMaxChannels)
    (hm : m ≤ count) (h : plan.UpTo count m) :
    DrainInv hop rings scratch (planNext count plan m) := by
  rw [planNext]
  split
  · rename_i hlt
    exact ⟨hcount, hlt, h⟩
  · split
    · trivial
    · exact ⟨h.ascending,
        fun route hroute => (h.measurement_lt route hroute).trans_le (hm.trans hcount),
        fun route hroute => (h.reference_lt route hroute).trans_le hcount⟩

theorem planReferenceNext_inv {count m tf r : ℕ}
    (hcount : count ≤ kMaxChannels) (hm : m < count) (h : plan.UpTo count m) :
    DrainInv hop rings scratch (planReferenceNext count plan m tf r) := by
  rw [planReferenceNext]
  split
  · rename_i hr
    exact ⟨hcount, hm, hr, h⟩
  · exact planNext_inv hcount hm (h.addUnrouted m).succ

theorem planStep_inv {config : ChannelConfig} {count : ℕ} {pc : PlanPc}
    (h : DrainInv hop rings scratch (.planning count plan pc)) :
    DrainInv hop rings scratch (planStep config count plan pc) := by
  obtain ⟨hcount, h⟩ := h
  cases pc with
  | role m =>
    rw [planStep]
    split
    · exact planNext_inv hcount h.1 h.2.succ
    · exact ⟨hcount, h⟩
  | transfer m => exact planReferenceNext_inv hcount h.1 h.2
  | referenceRole m tf r =>
    rw [planStep]
    split
    · exact ⟨hcount, h⟩
    · exact planReferenceNext_inv hcount h.1 h.2.2
  | referenceTransfer m tf r =>
    rw [planStep]
    split
    · exact planNext_inv hcount h.1 (h.2.2.addRoute h.2.1 tf)
    · exact planReferenceNext_inv hcount h.1 h.2.2

theorem measurement_ne_of_split {count m : ℕ} (h : g.plan.UpTo count m)
    (hsplit : g.routes = done ++ route :: todo) :
    (∀ other ∈ done, other.1.measurementChannel ≠ route.1.measurementChannel) ∧
      ∀ other ∈ todo, other.1.measurementChannel ≠ route.1.measurementChannel := by
  have hpairs := g.routes_pairwise h.ascending
  rw [hsplit, List.pairwise_append] at hpairs
  obtain ⟨-, htodo, hdone⟩ := hpairs
  constructor
  · intro other hother
    exact (hdone other hother route List.mem_cons_self).ne
  · intro other hother
    exact ((List.pairwise_cons.mp htodo).1 other hother).ne'

theorem Peeked.snoc (haligned : Aligned hop rings g (hops + 1))
    {count n : ℕ} (hplan : g.plan.UpTo count n)
    (hsplit : g.routes = done ++ route :: todo)
    (hfront : scratch g.ref = (rings g.ref).take hop) (h : Peeked scratch g done) :
    Peeked (Function.update scratch route.1.measurementChannel
      ((rings route.1.measurementChannel).take hop)) g (done ++ [route]) := by
  have hroute : route ∈ g.routes := by
    rw [hsplit]
    exact List.mem_append_right _ List.mem_cons_self
  intro other hother hindex
  rw [Function.update_of_ne (haligned.ne_ref route hroute).symm]
  rcases List.mem_append.mp hother with hother | hother
  · rw [Function.update_of_ne ((measurement_ne_of_split hplan hsplit).1 other hother)]
    exact h other hother hindex
  · obtain rfl := List.mem_singleton.mp hother
    rw [Function.update_self, hfront]
    exact (haligned.agree other hroute hindex).take_eq (Nat.le_mul_of_pos_left hop hops.succ_pos)

theorem Discarding.begin (haligned : Aligned hop rings g (hops + 1))
    (hpeeked : Peeked scratch g g.routes)
    (href : rings' g.ref = (rings g.ref).drop hop) (hrest : ∀ ch ≠ g.ref, rings' ch = rings ch) :
    Discarding hop rings' scratch g hops g.routes := by
  refine ⟨haligned.ne_ref, hpeeked, ⟨[], rfl, fun route hroute => ?_⟩, fun route hroute hindex => ?_⟩
  · exact (List.not_mem_nil hroute).elim
  · have hagree := haligned.agree route hroute hindex
    rw [Nat.succ_mul, Nat.add_comm] at hagree
    rw [href, hrest _ (haligned.ne_ref route hroute)]
    exact hagree.drop

theorem Discarding.next {hops count n : ℕ} (hplan : g.plan.UpTo count n)
    {todo : List (TransferRoute × ℕ)} (h : Discarding hop rings scratch g hops (route :: todo))
    (hroute : rings' route.1.measurementChannel = (rings route.1.measurementChannel).drop hop)
    (hrest : ∀ ch ≠ route.1.measurementChannel, rings' ch = rings ch) :
    Discarding hop rings' scratch g hops todo ∧ route ∈ g.routes := by
  obtain ⟨done, hsplit, hdone⟩ := h.split
  have hmem : route ∈ g.routes := by
    rw [hsplit]
    exact List.mem_append_right _ List.mem_cons_self
  obtain ⟨hne_done, hne_todo⟩ := measurement_ne_of_split hplan hsplit
  have href := hrest g.ref (h.ne_ref route hmem).symm
  refine ⟨⟨h.ne_ref, h.peeked, ⟨done ++ [route], ?_, ?_⟩, ?_⟩, hmem⟩
  · rw [hsplit, List.append_assoc, List.singleton_append]
  · intro other hother hindex
    rcases List.mem_append.mp hother with hother | hother
    · rw [href, hrest _ (hne_done other hother)]
      exact hdone other hother hindex
    · obtain rfl := List.mem_singleton.mp hother
      rw [href, hroute]
      exact h.ahead other List.mem_cons_self hindex
  · intro other hother hindex
    rw [href, hrest _ (hne_todo other hother)]
    exact h.ahead other (List.mem_cons_of_mem _ hother) hindex

theorem Discarding.aligned
    (h : Discarding hop rings scratch g hops []) : Aligned hop rings g hops := by
  obtain ⟨done, hsplit, hdone⟩ := h.split
  rw [List.append_nil] at hsplit
  exact ⟨h.ne_ref, fun route hroute => hdone route (hsplit ▸ hroute)⟩

end

/-! ### The invariant of a run -/

/-- What a channel's ring holds. -/
def items (s : CaptureRun) (ch : ℕ) : List ℕ := (s.bus.rings ch).items

/-- The rings are accounted for, and the drain stands where it may. -/
structure HopInv (hop : ℕ) (s : CaptureRun) : Prop where
  account : Accounted s
  drain : ∀ pc, s.con = .drain pc → DrainInv hop s.items s.scratch pc

variable {s : CaptureRun}

variable {hop : ℕ} {g : DrainGroup} {pc' : DrainPc} {todo : List (TransferRoute × ℕ)} {hops : ℕ}
  {rings scratch : ℕ → List ℕ} {pc : DrainPc}

/-- The one place that needs the condition: kept pairs agree for as many hops as are counted. -/
theorem aligned_of_kept (haccount : Accounted s)
    (hplan : g.plan.UpTo kMaxChannels kMaxChannels) {available : List ℕ}
    (hsampled : Sampled s.items g g.routes available)
    (hne : ∀ route ∈ g.routes, route.1.measurementChannel ≠ g.ref)
    (hkept : ∀ route ∈ g.routes, route.2 < kMaxTransferFunctions →
      s.PairKept g.ref route.1.measurementChannel) :
    Aligned hop s.items g (pairedHopCount available hop) := by
  refine ⟨hne, fun route hroute hindex => ?_⟩
  obtain ⟨hmem, href⟩ := DrainGroup.mem_routes hroute
  obtain ⟨hblocks, hconsumed⟩ := hkept route hroute hindex
  have href_lt : g.ref < kMaxChannels := href ▸ hplan.reference_lt _ hmem
  have hr := haccount.holds _ href_lt
  have hm := haccount.holds _ (hplan.measurement_lt _ hmem)
  rw [settled_congr hblocks, hconsumed] at hr
  obtain ⟨ahead, hahead⟩ := s.cb.exists_inFlight
  obtain ⟨⟨a, ha, hle⟩, hroutes⟩ := hsampled
  obtain ⟨c, hc, hcle⟩ := hroutes route hroute
  exact BoundedQueue.agreeUpTo_of_holds (hahead _) (hahead _) hr hm
    ((pairedHopCount_mul_le ha hop).trans hle) ((pairedHopCount_mul_le hc hop).trans hcle)

theorem items_discard_self (s : CaptureRun) (ch count : ℕ) :
    (s.discard ch count).items ch = (s.items ch).drop count := by
  rw [items, discard, CaptureBus.rings_discardRing, if_pos rfl]
  rfl

theorem items_discard_of_ne (s : CaptureRun) (ch count : ℕ) :
    ∀ j ≠ ch, (s.discard ch count).items j = s.items j := by
  intro j hj
  rw [items, discard, CaptureBus.rings_discardRing, if_neg hj]
  rfl

theorem roleNext_inv {role : ChannelRole}
    (h : roleNext role = .drain pc) : DrainInv hop rings scratch pc := by
  cases role <;> cases h
  trivial

theorem peekNext_inv
    (hplan : g.plan.UpTo kMaxChannels kMaxChannels) (haligned : Aligned hop rings g (hops + 1))
    (hfront : hop ≤ (rings g.ref).length ∧ scratch g.ref = (rings g.ref).take hop)
    {done todo : List (TransferRoute × ℕ)} (hsplit : g.routes = done ++ todo)
    (hpeeked : Peeked scratch g done) : DrainInv hop rings scratch (peekNext g hops todo) := by
  cases todo with
  | nil =>
    rw [List.append_nil] at hsplit
    exact ⟨hplan, haligned, hsplit ▸ hpeeked⟩
  | cons route todo => exact ⟨hplan, haligned, hfront, done, hsplit, hpeeked⟩

theorem routeRing_inv {available : List ℕ}
    (h : DrainInv hop s.items s.scratch (.routeRing g todo available))
    (hpc : (s.drainStep hop (.routeRing g todo available)).con = .drain pc') :
    DrainInv hop (s.drainStep hop (.routeRing g todo available)).items
      (s.drainStep hop (.routeRing g todo available)).scratch pc' := by
  obtain ⟨hplan, done, hsplit, hsampled⟩ := h
  cases todo with
  | nil =>
    cases hpc
    rw [List.append_nil] at hsplit
    exact ⟨hplan, hsplit ▸ hsampled⟩
  | cons route todo =>
    by_cases hring : route.1.measurementChannel < s.bus.preparedChannels
    · have hstep : s.drainStep hop (.routeRing g (route :: todo) available) =
          { s with con := .drain (.routeSampling g route.1 todo available) } := if_pos hring
      rw [hstep] at hpc ⊢
      cases hpc
      exact ⟨hplan, done, route.2, hsplit, hsampled⟩
    · have hstep : s.drainStep hop (.routeRing g (route :: todo) available) =
          { s with con := .drain (.routeRing g todo (available ++ [0])) } := if_neg hring
      rw [hstep] at hpc ⊢
      cases hpc
      refine ⟨hplan, done ++ [route], by rw [hsplit, List.append_assoc]; rfl, ?_⟩
      exact hsampled.snoc (Nat.zero_le _)

theorem refPeeking_inv (h : DrainInv hop s.items s.scratch (.refPeeking g (hops + 1)))
    (hpc : (s.drainStep hop (.refPeeking g (hops + 1))).con = .drain pc') :
    DrainInv hop (s.drainStep hop (.refPeeking g (hops + 1))).items
      (s.drainStep hop (.refPeeking g (hops + 1))).scratch pc' := by
  have haligned := h.2 hops.succ_ne_zero
  by_cases hshort : ((s.bus.rings g.ref).peek hop).length ≠ hop
  · have hstep : s.drainStep hop (.refPeeking g (hops + 1)) =
        { s.peekInto g.ref hop with con := .drain (.groups g.plan g.refs) } := if_pos hshort
    rw [hstep] at hpc ⊢
    cases hpc
    exact h.1
  · have hstep : s.drainStep hop (.refPeeking g (hops + 1)) =
        { s.peekInto g.ref hop with con := .drain (peekNext g hops g.routes) } := if_neg hshort
    rw [hstep] at hpc ⊢
    obtain rfl := ConsumerPc.drain.inj hpc
    refine peekNext_inv h.1 haligned ⟨?_, Function.update_self ..⟩
      (List.nil_append g.routes).symm ?_
    · have hlen := not_not.mp hshort
      rw [BoundedQueue.peek, List.length_take] at hlen
      exact hlen ▸ Nat.min_le_right _ _
    · intro route hroute
      exact (List.not_mem_nil hroute).elim

theorem routePeeking_inv (h : DrainInv hop s.items s.scratch (.routePeeking g hops todo))
    (hpc : (s.drainStep hop (.routePeeking g hops todo)).con = .drain pc') :
    DrainInv hop (s.drainStep hop (.routePeeking g hops todo)).items
      (s.drainStep hop (.routePeeking g hops todo)).scratch pc' := by
  obtain ⟨hplan, haligned, hfront, done, hsplit, hpeeked⟩ := h
  cases todo with
  | nil =>
    cases hpc
    rw [List.append_nil] at hsplit
    exact ⟨hplan, haligned, hsplit ▸ hpeeked⟩
  | cons route todo =>
    have hroute : route ∈ g.routes := by
      rw [hsplit]
      exact List.mem_append_right _ List.mem_cons_self
    by_cases hshort : ((s.bus.rings route.1.measurementChannel).peek hop).length ≠ hop
    · have hstep : s.drainStep hop (.routePeeking g hops (route :: todo)) =
          { s.peekInto route.1.measurementChannel hop with
            con := .drain (.groups g.plan g.refs) } := if_pos hshort
      rw [hstep] at hpc ⊢
      cases hpc
      exact hplan
    · have hstep : s.drainStep hop (.routePeeking g hops (route :: todo)) =
          { s.peekInto route.1.measurementChannel hop with
            con := .drain (peekNext g hops todo) } := if_neg hshort
      rw [hstep] at hpc ⊢
      obtain rfl := ConsumerPc.drain.inj hpc
      have hnext := hpeeked.snoc haligned hplan hsplit hfront.2
      refine peekNext_inv hplan haligned ⟨hfront.1, ?_⟩ ?_ hnext
      · exact (Function.update_of_ne (haligned.ne_ref route hroute).symm ..).trans hfront.2
      · rw [hsplit, List.append_assoc]
        rfl

theorem routeDiscarding_inv (h : DrainInv hop s.items s.scratch (.routeDiscarding g hops todo))
    (hpc : (s.drainStep hop (.routeDiscarding g hops todo)).con = .drain pc') :
    DrainInv hop (s.drainStep hop (.routeDiscarding g hops todo)).items
      (s.drainStep hop (.routeDiscarding g hops todo)).scratch pc' := by
  cases todo with
  | nil =>
    cases hpc
    exact ⟨h.1, fun _ => h.2.aligned⟩
  | cons route todo =>
    obtain ⟨hnext, hroute⟩ := h.2.next h.1
      (items_discard_self s route.1.measurementChannel hop)
      (items_discard_of_ne s route.1.measurementChannel hop)
    obtain rfl := ConsumerPc.drain.inj hpc
    rw [discardNext]
    split
    · exact ⟨h.1, hnext⟩
    · rename_i hindex
      exact ⟨h.1, hnext, route.2, Nat.lt_of_not_le hindex, hroute⟩

theorem DrainInv.step (haccount : Accounted s) (h : DrainInv hop s.items s.scratch pc)
    (hok : ∀ g ∈ (ConsumerPc.drain pc).counted hop,
      (∀ route ∈ g.routes, route.1.measurementChannel ≠ g.ref) ∧
        ∀ route ∈ g.routes, route.2 < kMaxTransferFunctions →
          s.PairKept g.ref route.1.measurementChannel)
    (hpc : (s.drainStep hop pc).con = .drain pc') :
    DrainInv hop (s.drainStep hop pc).items (s.drainStep hop pc).scratch pc' := by
  cases pc with
  | gateCheck =>
    rw [drainStep] at hpc ⊢
    split at hpc <;> cases hpc
    trivial
  | counting =>
    cases hpc
    exact planNext_inv (Nat.min_le_right _ _) (Nat.zero_le _) (RoutingPlan.upTo_empty _ _)
  | planning count plan pc =>
    cases hpc
    exact planStep_inv h
  | searching role ch =>
    simp only [drainStep] at hpc
    split at hpc
    · split at hpc <;> cases hpc <;> trivial
    · exact roleNext_inv hpc
  | roleRing role ch =>
    simp only [drainStep] at hpc
    split at hpc
    · cases hpc
      trivial
    · exact roleNext_inv hpc
  | roleSampling role ch =>
    cases hpc
    trivial
  | rolePeeking role ch hops =>
    cases hops with
    | zero => exact roleNext_inv hpc
    | succ hops =>
      simp only [drainStep] at hpc
      split at hpc
      · exact roleNext_inv hpc
      · cases hpc
        trivial
  | roleDiscarding role ch hops =>
    cases hpc
    trivial
  | groups plan refs =>
    cases refs with
    | nil => cases hpc
    | cons ref refs =>
      cases hpc
      exact h
  | refRing g =>
    by_cases hring : g.ref < s.bus.preparedChannels ∧ hop ≠ 0
    · have hstep : s.drainStep hop (.refRing g) = { s with con := .drain (.refSampling g) } :=
        if_pos hring
      rw [hstep] at hpc ⊢
      cases hpc
      exact h
    · have hstep : s.drainStep hop (.refRing g) =
          { s with con := .drain (.groups g.plan g.refs) } := if_neg hring
      rw [hstep] at hpc ⊢
      cases hpc
      exact h
  | refSampling g =>
    cases hpc
    refine ⟨h, [], rfl, ⟨_, List.mem_singleton_self _, Nat.le_refl _⟩, fun route hroute => ?_⟩
    exact (List.not_mem_nil hroute).elim
  | routeRing g todo available => exact routeRing_inv h hpc
  | routeSampling g route todo available =>
    cases hpc
    obtain ⟨hplan, done, index, hsplit, hsampled⟩ := h
    refine ⟨hplan, done ++ [(route, index)], by rw [hsplit, List.append_assoc]; rfl, ?_⟩
    exact hsampled.snoc (Nat.le_refl _)
  | hopCount g available =>
    cases hpc
    refine ⟨h.1, fun hne => ?_⟩
    have hcounted : g ∈ (ConsumerPc.drain (.hopCount g available)).counted hop := by
      rw [ConsumerPc.counted, if_neg hne]
      rfl
    obtain ⟨hne_ref, hkept⟩ := hok g hcounted
    exact aligned_of_kept haccount h.1 h.2 hne_ref hkept
  | refPeeking g hops =>
    cases hops with
    | zero =>
      cases hpc
      exact h.1
    | succ hops => exact refPeeking_inv h hpc
  | routePeeking g hops todo => exact routePeeking_inv h hpc
  | refDiscarding g hops =>
    cases hpc
    exact ⟨h.1, Discarding.begin h.2.1 h.2.2 (items_discard_self s g.ref hop)
      (items_discard_of_ne s g.ref hop)⟩
  | routeDiscarding g hops todo => exact routeDiscarding_inv h hpc
  | pushing g hops route todo =>
    cases hpc
    exact ⟨h.1, h.2.1⟩

theorem HopInv.drainStep (hs : HopInv hop s) (hcon : s.con = .drain pc)
    (hok : ∀ g ∈ s.con.counted hop, (∀ route ∈ g.routes, route.1.measurementChannel ≠ g.ref) ∧
      ∀ route ∈ g.routes, route.2 < kMaxTransferFunctions →
        s.PairKept g.ref route.1.measurementChannel) : HopInv hop (s.drainStep hop pc) := by
  rw [hcon] at hok
  refine ⟨?_, fun pc' hpc => (hs.drain pc hcon).step hs.account hok hpc⟩
  obtain ⟨u, hu, heq⟩ := drainStep_eq hop s pc
  have haccount : Accounted u := by
    rcases hu with rfl | ⟨ch, count, rfl⟩
    · exact hs.account
    · exact hs.account.discard ch count
  rw [heq]
  exact ⟨haccount.holds, haccount.taken_lt⟩

/-- A resync moves frames in its drain only, and starts a new account only when it has left
nothing. -/
theorem Accounted.serviceStep (hs : Accounted s) (now : ℕ) (pc : ServicePc) :
    Accounted (s.serviceStep now pc) := by
  cases pc with
  | discarding timedOut largest ch count =>
    have hdiscard := hs.discard ch count
    exact ⟨hdiscard.holds, hdiscard.taken_lt⟩
  | lowering timedOut largest => exact hs.lowerGate timedOut largest
  | raising pc => cases pc <;> exact ⟨hs.holds, hs.taken_lt⟩
  | readClock =>
    rw [CaptureRun.serviceStep, CaptureBus.noteWaiting]
    split <;> exact ⟨hs.holds, hs.taken_lt⟩
  | scanning | gateCheck | loadActive | sampling =>
    simp only [CaptureRun.serviceStep]
    (repeat' split) <;> exact ⟨hs.holds, hs.taken_lt⟩
  | loadSeen | loadMark => exact ⟨hs.holds, hs.taken_lt⟩

/-- From a resync the consumer goes to the head of its drain. -/
theorem serviceStep_con {now : ℕ} {pc : ServicePc}
    (h : (s.serviceStep now pc).con = .drain pc') : pc' = .gateCheck := by
  cases pc with
  | raising pc => cases pc <;> cases h
  | scanning | gateCheck | loadActive | sampling =>
    simp only [CaptureRun.serviceStep] at h
    (repeat' split at h) <;> cases h <;> rfl
  | readClock | loadSeen | loadMark | discarding | lowering => cases h <;> rfl

theorem CallbackStep.grow {s t : CaptureRun} (h : CallbackStep s t) :
    t.con = s.con ∧ t.scratch = s.scratch ∧ ∀ ch, s.items ch <+: t.items ch := by
  cases h with
  | write f roles n c taken src h hsrc =>
    refine ⟨rfl, rfl, fun ch => ?_⟩
    cases src with
    | none => exact List.prefix_refl _
    | some samples =>
      show s.items ch <+: ((s.bus.writeRing (some samples) c).rings ch).items
      rw [CaptureBus.writeRing_rings]
      by_cases hch : ch = c
      · subst hch
        rw [Function.update_self, BoundedQueue.items_write]
        split
        · exact List.prefix_append _ _
        · exact List.prefix_refl _
      · rw [Function.update_of_ne hch]
        exact List.prefix_refl _
  | _ => exact ⟨rfl, rfl, fun ch => List.prefix_refl _⟩

/-- The rings and the drain through any step that meets the condition. -/
theorem HopInv.step {s t : CaptureRun} {a : CaptureAct} (hs : HopInv hop s)
    (h : (captureRuns hop).step s a = some t) (hok : GroupKept hop s a t) : HopInv hop t := by
  cases a with
  | enter present numChannels numSamples =>
    simp only [captureRuns] at h
    split at h
    · rename_i hidle
      cases h
      have hcb := CallbackPc.isIdle_iff.mp (Bool.and_eq_true_iff.mp hidle).1
      refine ⟨⟨fun ch hch => ?_, nofun⟩, hs.drain⟩
      have hholds := hs.account.holds ch hch
      rw [hcb] at hholds
      exact hholds
    · cases h
  | callback =>
    have hstep := callbackStep_cases h
    obtain ⟨hcon, hscratch, hgrow⟩ := hstep.grow
    refine ⟨hs.account.callback hstep, fun pc hpc => ?_⟩
    rw [hscratch]
    exact (hs.drain pc (hcon ▸ hpc)).grow hgrow
  | prepare sampleRate numChannels =>
    simp only [captureRuns] at h
    split at h
    · cases h
      exact ⟨⟨hs.account.holds, hs.account.taken_lt⟩, hs.drain⟩
    · cases h
  | device =>
    cases deviceStep_cases h <;> exact ⟨⟨hs.account.holds, hs.account.taken_lt⟩, hs.drain⟩
  | setActive | setRole | setTransferFunction =>
    cases h
    exact ⟨⟨hs.account.holds, hs.account.taken_lt⟩, hs.drain⟩
  | tick =>
    simp only [captureRuns] at h
    split at h
    · cases h
      exact ⟨⟨hs.account.holds, hs.account.taken_lt⟩, nofun⟩
    · cases h
  | consumer now =>
    simp only [captureRuns] at h
    split at h
    · cases h
    · rename_i pc hcon
      cases h
      refine ⟨hs.account.serviceStep now pc, fun pc' hpc => ?_⟩
      rw [serviceStep_con hpc]
      trivial
    · rename_i pc hcon
      cases h
      exact hs.drainStep hcon (hok rfl)

theorem HopInv.pushesAligned (hs : HopInv hop s) (a : CaptureAct)
    (t : CaptureRun) : PushesAligned s a t := by
  intro pair hpair
  rw [ConsumerPc.pushed.eq_def] at hpair
  split at hpair
  · rename_i g hops route todo hcon
    obtain ⟨-, hdiscarding, index, hindex, hroute⟩ := hs.drain _ hcon
    obtain rfl := Option.some.inj hpair
    exact hdiscarding.peeked _ hroute hindex
  · cases hpair

/-- **Headline.** In every run in which, whenever the hops of a group are counted, its pairs have
been kept since the last clean resync, every reference hop that is handed on covers the same frames
as the measurement hop it is handed on with. -/
theorem push_aligned (hop : ℕ) {s : CaptureRun} (hinit : (captureRuns hop).init s)
    (acts : List CaptureAct) (hok : (captureRuns hop).AlongSteps (GroupKept hop) s acts) :
    (captureRuns hop).AlongSteps PushesAligned s acts := by
  obtain ⟨b, hempty, -, rfl⟩ := hinit
  refine Machine.AlongSteps.of_invariant (HopInv hop) ?_ ⟨accounted_start hempty, nofun⟩ hok
  intro s a t hs hstep hkept
  exact ⟨hs.step hstep hkept, hs.pushesAligned a t⟩

/-! ### Two channels, a sample at a time -/

/-- A block of one frame, from its first access to its return. -/
def oneFrame : List CaptureAct := .enter (some [true, true]) 2 1 :: List.replicate 8 .callback

/-- Two blocks, and a tick that hands both on. -/
def drained : List CaptureAct := oneFrame ++ oneFrame ++ .tick :: List.replicate 95 (.consumer 0)

theorem push_aligned_drained :
    (captureRuns 1).AlongSteps PushesAligned (.start (twoChannels 8)) drained :=
  push_aligned 1 (captureRuns_init_twoChannels 1 8) drained (by decide +kernel)

/-- Both rings are full when the consumer has discarded the reference's hop and not yet the
measurement's: the next block is taken by the reference alone, and the pair is a frame apart from
then on. -/
def overrun : List CaptureAct :=
  oneFrame ++ oneFrame ++ .tick :: List.replicate 84 (.consumer 0) ++ oneFrame ++
  List.replicate 11 (.consumer 0) ++ oneFrame ++ .tick :: List.replicate 86 (.consumer 0)

theorem overrun_shifts_pair :
    ¬ (captureRuns 1).AlongSteps PushesAligned (.start (twoChannels 2)) overrun := by
  decide +kernel

end CaptureRun

end RtaTool
