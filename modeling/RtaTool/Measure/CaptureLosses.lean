import Mathlib.Data.List.GetD
import RtaTool.Measure.HopAlignment
import RtaTool.Measure.ResyncGate

/-!
# What an SPL session loses

A frame that is delivered to a logged channel is fed to its meter, or it is in the channel's ring,
or it is lost: refused by a full ring, turned away by the gate, or thrown away by the drain of a
resync. The SPL feed reports the sum of `dropCount(channel)` and `resyncLostFrames()` as what was
lost, and the log reconstructs its times from that.

The first of the two counts is the channel's own. The second is one count for all channels: the
drain adds the backlog of the ring that held most. A channel whose ring held less is charged with
frames it did not lose, and rings that nobody drains, of a measurement channel without a reference,
hold as much as they can. That, and a channel past those the bus was prepared for, is all there is
to it: `CountsAlike` excludes these two, and then the account of the channel balances.

Three counts are bookkeeping, kept beside the run: what was delivered to the channel, what was fed
to its meter, and what the resync under way has taken from its ring so far. The freeze of
`feedSpl` is not here, since without a `prepare` the epoch stays that of the session.

## Main definitions

* `LossRun`, `lossRuns` -- a session on one channel, beside the capture threads
* `LossRun.ledger` -- what has been fed, lost and kept, against what was delivered
* `CountsAlike` -- the shared count is the channel's own

## Main results

* `ledger_constant` -- whenever everything is at rest, the ledger shows what it showed at the start
* `ledger_overcounts` -- a backlog on another channel is charged to this one
-/

namespace RtaTool

open CaptureRun

/-- The capture threads, and the counts of one channel. -/
structure LossRun where
  run : CaptureRun
  delivered : ℕ := 0
  fed : ℕ := 0
  taken : ℕ := 0

/-! ### The session -/

/-- The frames that are delivered by a step of the callback: those of the block that turns out to
find the bus active and its arguments in order. -/
def CallbackPc.arrives : CallbackPc → CallbackPc → ℕ
  | .entered f, .activeSeen _ => f.frames.length
  | _, _ => 0

/-- The ring the consumer is about to discard a hop from. -/
def DrainPc.discards : DrainPc → Option ℕ
  | .roleDiscarding _ ch _ => some ch
  | .refDiscarding g _ => some g.ref
  | .routeDiscarding _ _ (route :: _) => some route.1.measurementChannel
  | _ => none

/-- What `feedSpl` is about to feed to the meter of a channel. It follows each discard but that of
a reference in a group. -/
def ConsumerPc.feeds (hop c : ℕ) : ConsumerPc → ℕ
  | .drain (.refDiscarding _ _) => 0
  | .drain pc => if pc.discards = some c then hop else 0
  | _ => 0

/-- The ring the drain of a resync has come to. -/
def ConsumerPc.samples : ConsumerPc → Option ℕ
  | .service (.sampling _ _ ch) => if ch < kMaxChannels then some ch else none
  | _ => none

/-- The callback is taking its snapshot of the roles, or about to limit it. -/
def CallbackPc.isSnapshotting : CallbackPc → Bool
  | .snapshotting _ _ => true
  | _ => false

/-- What the drain of a resync has taken from a channel's ring, after the consumer's next step. -/
def CaptureRun.takenAfter (s : CaptureRun) (c taken : ℕ) : ℕ :=
  match s.con with
  | .service (.discarding _ _ ch count) =>
    if ch = c then taken + ((s.bus.rings ch).discard count).1 else taken
  | .service (.lowering _ _) => 0
  | _ => taken

/-- The counts after a step that leads to `t`. -/
def LossRun.advance (hop c : ℕ) (s : LossRun) (a : CaptureAct) (t : CaptureRun) : LossRun where
  run := t
  delivered := s.delivered + s.run.cb.arrives t.cb
  fed := s.fed + if a.isConsumer then s.run.con.feeds hop c else 0
  taken := if a.isConsumer then s.run.takenAfter c s.taken else s.taken

/-- What may happen in the session: nothing prepares the bus, every block is delivered for the
channel, and the channel stays a measurement channel. -/
def CaptureAct.InSession (c : ℕ) : CaptureAct → Prop
  | .enter present numChannels _ => (present.getD []).getD c false = true ∧ (c : ℤ) < numChannels
  | .prepare _ _ | .device => False
  | .setRole channel role => channel = c → role = .measurement
  | _ => True

instance (c : ℕ) (a : CaptureAct) : Decidable (a.InSession c) :=
  match a with
  | .enter _ _ _ => inferInstanceAs (Decidable (_ ∧ _))
  | .prepare _ _ | .device => isFalse id
  | .setRole _ _ => inferInstanceAs (Decidable (_ → _))
  | .callback | .setActive _ | .setTransferFunction _ _ | .tick | .consumer _ => isTrue trivial

/-- No block, no `prepare`, no resync and no drain is under way. -/
def CaptureRun.AtRest (s : CaptureRun) : Prop := s.cb = .idle ∧ s.dev = .idle ∧ s.con = .waiting

/-- The consumer waits for its next tick. -/
def ConsumerPc.isWaiting : ConsumerPc → Bool
  | .waiting => true
  | _ => false

theorem ConsumerPc.isWaiting_iff {pc : ConsumerPc} : pc.isWaiting = true ↔ pc = .waiting := by
  cases pc <;> simp [isWaiting]

instance (s : CaptureRun) : Decidable s.AtRest :=
  decidable_of_iff (s.cb.isIdle = true ∧ s.dev.isIdle = true ∧ s.con.isWaiting = true)
    (and_congr CallbackPc.isIdle_iff (and_congr DevicePc.isIdle_iff ConsumerPc.isWaiting_iff))

/-- A session on channel `c`, from a moment at which everything is at rest. The bus may be in any
condition: rings may hold a backlog and the gate may be up. -/
def lossRuns (hop c : ℕ) : Machine LossRun CaptureAct where
  init s := s.run.AtRest ∧ c < kMaxChannels ∧ s.run.bus.config.roles c = .measurement ∧
    s.delivered = 0 ∧ s.fed = 0 ∧ s.taken = 0
  step s a :=
    if a.InSession c then ((captureRuns hop).step s.run a).map (s.advance hop c a) else none

namespace LossRun

/-- The samples fed to the channel's meter, plus the loss figure of the SPL feed, plus what is in
the ring, minus what was delivered. -/
def ledger (c : ℕ) (s : LossRun) : ℤ :=
  s.fed + (s.run.bus.drops c + s.run.bus.resyncLostFrames) + s.run.bus.availableToRead c -
    s.delivered

end LossRun

/-- The channel is one the bus was prepared for whenever a block is about to be written, and
whenever the drain of a resync comes to another ring, that ring holds no more than the channel's
own, or than the drain took from it if it has been there. -/
def CountsAlike (c : ℕ) (s : LossRun) (a : CaptureAct) (_ : LossRun) : Prop :=
  match a with
  | .callback => s.run.cb.isSnapshotting = true → c < s.run.bus.preparedChannels
  | .consumer _ =>
    ∀ ch ∈ s.run.con.samples, ch ≠ c →
      s.run.bus.availableToRead ch ≤ if ch < c then s.run.bus.availableToRead c else s.taken
  | _ => True

instance (c : ℕ) (s : LossRun) (a : CaptureAct) (t : LossRun) : Decidable (CountsAlike c s a t) :=
  match a with
  | .callback => inferInstanceAs (Decidable (_ → _))
  | .consumer _ => inferInstanceAs (Decidable (∀ ch ∈ s.run.con.samples, _))
  | .enter _ _ _ | .prepare _ _ | .device | .setActive _ | .setRole _ _ | .setTransferFunction _ _
  | .tick => isTrue trivial


/-! ### The session's edits -/

/-- A tag decides nothing about the roles. -/
theorem ChannelConfig.setTransferFunction_roles (config : ChannelConfig) (channel tf : ℤ) :
    (config.setTransferFunction channel tf).roles = config.roles := by
  rw [ChannelConfig.setTransferFunction]
  split <;> rfl

/-- The channel keeps its role through an edit that is not about it, or gives it the same. -/
theorem ChannelConfig.setRole_measurement {config : ChannelConfig} {c : ℕ} {channel : ℤ}
    {role : ChannelRole} (h : config.roles c = .measurement)
    (hkept : channel = c → role = .measurement) :
    (config.setRole channel role).roles c = .measurement := by
  rw [ChannelConfig.setRole]
  split
  · rename_i htable
    show Function.update config.roles channel.toNat role c = .measurement
    by_cases hc : c = channel.toNat
    · subst hc
      rw [Function.update_self]
      exact hkept (Int.toNat_of_nonneg htable.1).symm
    · rw [Function.update_of_ne hc]
      exact h
  · exact h

/-! ### The audio thread -/

/-- The block was delivered for the channel. -/
def FrameBlock.DeliveredTo (f : FrameBlock) (c : ℕ) : Prop :=
  f.data c = some f.frames ∧ (c : ℤ) < f.numChannels ∧ f.frames.length = f.numSamples.toNat

/-- The frames of the block in flight that were delivered and are not accounted for yet. -/
def CallbackPc.unaccounted (c : ℕ) : CallbackPc → ℕ
  | .idle | .entered _ => 0
  | .activeSeen f | .gateSeen f | .gateCounted f | .snapshotting f _ => f.frames.length
  | .writing f _ _ ch _ => if ch ≤ c then f.frames.length else 0

/-- The block in flight is delivered for the channel, and it will go to the channel's ring. -/
def CallbackPc.Bound (c : ℕ) : CallbackPc → Prop
  | .idle => True
  | .entered f | .activeSeen f | .gateSeen f | .gateCounted f => f.DeliveredTo c
  | .snapshotting f roles =>
    f.DeliveredTo c ∧ (c < roles.length → roles.getD c .unused = .measurement)
  | .writing f roles limit _ _ =>
    f.DeliveredTo c ∧ roles.getD c .unused = .measurement ∧ c < limit

/-- The account of the channel, whatever is under way. -/
def LossRun.Accounts (c : ℕ) (start : ℤ) (s : LossRun) : Prop :=
  (s.fed : ℤ) + (s.run.bus.drops c + s.run.bus.resyncLostFrames) + s.run.bus.availableToRead c +
    s.run.cb.unaccounted c + s.taken = s.delivered + start

/-- One turn of the loop accounts for the block in the channel whose turn it is, and in no other. -/
theorem CaptureBus.writeRing_account (b : CaptureBus ℕ) (src : Option (List ℕ)) (ch c : ℕ) :
    (b.writeRing src ch).drops c + (b.writeRing src ch).availableToRead c =
      b.drops c + b.availableToRead c + if c = ch then (src.getD []).length else 0 := by
  cases src with
  | none => simp [CaptureBus.writeRing]
  | some samples =>
    have hrest : (b.writeRing (some samples) ch).drops =
        if ((b.rings ch).write samples).1 then b.drops
        else Function.update b.drops ch (b.drops ch + samples.length) := rfl
    rw [CaptureBus.availableToRead, CaptureBus.writeRing_rings, hrest, CaptureBus.availableToRead,
      Option.getD_some]
    by_cases hc : c = ch
    · subst hc
      rw [Function.update_self, BoundedQueue.items_write, if_pos rfl]
      cases ((b.rings c).write samples).1 with
      | true =>
        rw [if_pos rfl, if_pos rfl, List.length_append]
        omega
      | false =>
        rw [if_neg Bool.false_ne_true, if_neg Bool.false_ne_true, Function.update_self]
        omega
    · rw [Function.update_of_ne hc, if_neg hc]
      cases ((b.rings ch).write samples).1 with
      | true => rw [if_pos rfl, Nat.add_zero]
      | false => rw [if_neg Bool.false_ne_true, Function.update_of_ne hc, Nat.add_zero]

variable {s t : CaptureRun}

theorem callbackStep_frame (h : s.callbackStep = some t) :
    t.dev = s.dev ∧ t.con = s.con ∧ t.bus.config = s.bus.config ∧
      t.bus.preparedChannels = s.bus.preparedChannels := by
  cases callbackStep_cases h with
  | write f roles n ch taken src _ _ => cases src <;> exact ⟨rfl, rfl, rfl, rfl⟩
  | _ => exact ⟨rfl, rfl, rfl, rfl⟩

theorem callbackStep_account {c : ℕ} (h : s.callbackStep = some t)
    (hc : c < kMaxChannels) (hrole : s.bus.config.roles c = .measurement) (hbound : s.cb.Bound c)
    (hprepared : s.cb.isSnapshotting = true → c < s.bus.preparedChannels) :
    t.cb.Bound c ∧
      t.bus.drops c + t.bus.resyncLostFrames + t.bus.availableToRead c + t.cb.unaccounted c =
        s.bus.drops c + s.bus.resyncLostFrames + s.bus.availableToRead c + s.cb.unaccounted c +
          s.cb.arrives t.cb := by
  rw [CaptureRun.callbackStep.eq_def] at h
  split at h
  case h_1 => cases h
  case h_2 f hcb =>
    rw [hcb] at hbound ⊢
    split at h
    · cases h
      exact ⟨trivial, rfl⟩
    · split at h <;> cases h
      · exact ⟨trivial, rfl⟩
      · exact ⟨hbound, rfl⟩
  case h_3 f hcb =>
    rw [hcb] at hbound ⊢
    split at h <;> cases h
    · exact ⟨hbound, rfl⟩
    · exact ⟨⟨hbound, fun hlt => absurd hlt (Nat.not_lt_zero c)⟩, rfl⟩
  case h_4 f hcb =>
    rw [hcb] at hbound ⊢
    cases h
    exact ⟨hbound, rfl⟩
  case h_5 f hcb =>
    rw [hcb] at hbound ⊢
    cases h
    refine ⟨trivial, ?_⟩
    show s.bus.drops c + (s.bus.resyncLostFrames + f.numSamples.toNat) + s.bus.availableToRead c + 0 =
      s.bus.drops c + s.bus.resyncLostFrames + s.bus.availableToRead c + f.frames.length + 0
    rw [hbound.2.2]
    omega
  case h_6 f roles hcb =>
    have hlt := hprepared (by rw [hcb]; rfl)
    rw [hcb] at hbound ⊢
    obtain ⟨hdelivered, hroles⟩ := hbound
    split at h <;> cases h
    · refine ⟨⟨hdelivered, fun hlen => ?_⟩, rfl⟩
      rw [List.length_append, List.length_singleton] at hlen
      by_cases hc' : c < roles.length
      · rw [List.getD_append _ _ _ _ hc']
        exact hroles hc'
      · obtain rfl : c = roles.length := by omega
        rw [List.getD_append_right _ _ _ _ (Nat.le_refl _), Nat.sub_self]
        exact hrole
    · rename_i hall
      have hnum := hdelivered.2.1
      refine ⟨⟨hdelivered, hroles (by omega), ?_⟩, ?_⟩
      · rw [CaptureBus.writeLimit]
        omega
      · simp [CallbackPc.unaccounted, CallbackPc.arrives]
  case h_7 f roles limit ch taken hcb =>
    rw [hcb] at hbound ⊢
    obtain ⟨hdelivered, hroles, hlimit⟩ := hbound
    split at h <;> cases h
    · refine ⟨⟨hdelivered, hroles, hlimit⟩, ?_⟩
      generalize hsrc : CaptureBus.routedTo (roles.getD · .unused) f.data ch = src
      have haccount := s.bus.writeRing_account src ch c
      have hlost : (s.bus.writeRing src ch).resyncLostFrames = s.bus.resyncLostFrames := by
        cases src <;> rfl
      have hsame : c = ch → (src.getD []).length = f.frames.length := by
        rintro rfl
        rw [← hsrc, CaptureBus.routedTo, hroles, if_neg (by simp), hdelivered.1, Option.getD_some]
      simp only [CallbackPc.unaccounted, CallbackPc.arrives, hlost]
      by_cases hch : c = ch
      · rw [if_pos hch, hsame hch] at haccount
        rw [if_neg (by omega), if_pos (by omega)]
        omega
      · rw [if_neg hch] at haccount
        by_cases hle : ch ≤ c
        · rw [if_pos (by omega), if_pos hle]
          omega
        · rw [if_neg (by omega), if_neg hle]
          omega
    · refine ⟨trivial, ?_⟩
      simp only [CallbackPc.unaccounted, CallbackPc.arrives]
      rw [if_neg (by omega)]

/-! ### The consumer -/

/-- What holds of a group whose rings are being drained: no two of its routes go to one channel,
and the channel is no reference. -/
structure DrainGroup.Spares (g : DrainGroup) (c : ℕ) : Prop where
  ascending : g.plan.routes.Pairwise (·.measurementChannel < ·.measurementChannel)
  ref_ne : g.ref ≠ c
  refs : c ∉ g.refs

/-- Where the consumer stands between the peeks of a hop and its discards, the channel's ring holds
the hop. -/
def DrainPc.Holds (hop c length : ℕ) : DrainPc → Prop
  | .planning count plan pc =>
    c ∉ plan.distinctReferences ∧
      match pc with
      | .role m | .transfer m => plan.UpTo count m
      | .referenceRole m _ r => plan.UpTo count m ∧ r < count
      | .referenceTransfer m _ r => plan.UpTo count m ∧ r < count ∧ r ≠ c
  | .roleDiscarding _ ch _ => ch = c → hop ≤ length
  | .groups plan refs =>
    plan.routes.Pairwise (·.measurementChannel < ·.measurementChannel) ∧ c ∉ refs
  | .refRing g | .refSampling g | .routeRing g _ _ | .routeSampling g _ _ _ | .hopCount g _
  | .refPeeking g _ => g.Spares c
  | .routePeeking g _ todo =>
    g.Spares c ∧ (hop ≤ length ∨ ∀ route ∈ g.routes, route.1.measurementChannel = c → route ∈ todo)
  | .refDiscarding g _ =>
    g.Spares c ∧ ((∃ route ∈ g.routes, route.1.measurementChannel = c) → hop ≤ length)
  | .routeDiscarding g _ todo | .pushing g _ _ todo =>
    g.Spares c ∧ todo.Pairwise (·.1.measurementChannel < ·.1.measurementChannel) ∧
      ((∃ route ∈ todo, route.1.measurementChannel = c) → hop ≤ length)
  | .gateCheck | .counting | .searching _ _ | .roleRing _ _ | .roleSampling _ _
  | .rolePeeking _ _ _ => True

/-- What holds of the consumer. -/
def ConsumerPc.Holds (hop c length : ℕ) : ConsumerPc → Prop
  | .drain pc => pc.Holds hop c length
  | .waiting | .service _ => True

/-- The callback only ever adds to a ring. -/
theorem ConsumerPc.Holds.grow {hop c length length' : ℕ} {pc : ConsumerPc}
    (h : pc.Holds hop c length) (hle : length ≤ length') : pc.Holds hop c length' := by
  match pc with
  | .waiting | .service _ => trivial
  | .drain pc =>
    cases pc with
    | roleDiscarding role ch hops => exact fun hch => (h hch).trans hle
    | routePeeking g hops todo => exact ⟨h.1, h.2.imp_left fun hl => hl.trans hle⟩
    | refDiscarding g hops => exact ⟨h.1, fun hex => (h.2 hex).trans hle⟩
    | routeDiscarding g hops todo => exact ⟨h.1, h.2.1, fun hex => (h.2.2 hex).trans hle⟩
    | pushing g hops route todo => exact ⟨h.1, h.2.1, fun hex => (h.2.2 hex).trans hle⟩
    | _ => exact h

theorem drainStep_frame (hop : ℕ) (s : CaptureRun) (pc : DrainPc) :
    (s.drainStep hop pc).bus =
        (match pc.discards with
          | none => s.bus
          | some ch => s.bus.discardRing ch hop) ∧
      (s.drainStep hop pc).cb = s.cb ∧ (s.drainStep hop pc).dev = s.dev := by
  cases pc with
  | routeDiscarding g hops todo => cases todo <;> exact ⟨rfl, rfl, rfl⟩
  | gateCheck | searching | roleRing | refRing =>
    simp only [CaptureRun.drainStep, DrainPc.discards]
    (repeat' split) <;> exact ⟨rfl, rfl, rfl⟩
  | rolePeeking role ch hops =>
    cases hops with
    | zero => exact ⟨rfl, rfl, rfl⟩
    | succ hops =>
      simp only [CaptureRun.drainStep, DrainPc.discards]
      split <;> exact ⟨rfl, rfl, rfl⟩
  | groups plan refs => cases refs <;> exact ⟨rfl, rfl, rfl⟩
  | routeRing g todo available =>
    cases todo with
    | nil => exact ⟨rfl, rfl, rfl⟩
    | cons route todo =>
      simp only [CaptureRun.drainStep, DrainPc.discards]
      split <;> exact ⟨rfl, rfl, rfl⟩
  | refPeeking g hops =>
    cases hops with
    | zero => exact ⟨rfl, rfl, rfl⟩
    | succ hops =>
      simp only [CaptureRun.drainStep, DrainPc.discards]
      split <;> exact ⟨rfl, rfl, rfl⟩
  | routePeeking g hops todo =>
    cases todo with
    | nil => exact ⟨rfl, rfl, rfl⟩
    | cons route todo =>
      simp only [CaptureRun.drainStep, DrainPc.discards]
      split <;> exact ⟨rfl, rfl, rfl⟩
  | _ => exact ⟨rfl, rfl, rfl⟩

theorem drainStep_account {hop c : ℕ} {s : CaptureRun} {pc : DrainPc}
    (h : pc.Holds hop c (s.bus.availableToRead c)) :
    (s.drainStep hop pc).bus.availableToRead c + (ConsumerPc.drain pc).feeds hop c =
      s.bus.availableToRead c := by
  have hdiscard (ch : ℕ) (hlen : ch = c → hop ≤ s.bus.availableToRead c) :
      (s.bus.discardRing ch hop).availableToRead c + (if ch = c then hop else 0) =
        s.bus.availableToRead c := by
    rw [CaptureBus.availableToRead, CaptureBus.rings_discardRing, CaptureBus.availableToRead]
    by_cases hch : ch = c
    · subst hch
      have := hlen rfl
      rw [CaptureBus.availableToRead] at this
      rw [if_pos rfl, if_pos rfl, List.length_drop]
      omega
    · rw [if_neg hch, if_neg (Ne.symm hch), Nat.add_zero]
  rw [(drainStep_frame hop s pc).1]
  cases pc with
  | roleDiscarding role ch hops =>
    have := hdiscard ch h
    simpa [DrainPc.discards, ConsumerPc.feeds] using this
  | refDiscarding g hops =>
    have := hdiscard g.ref fun hc => absurd hc h.1.ref_ne
    rw [if_neg h.1.ref_ne] at this
    exact this
  | routeDiscarding g hops todo =>
    cases todo with
    | nil => rfl
    | cons route todo =>
      have := hdiscard route.1.measurementChannel fun hc => h.2.2 ⟨route, List.mem_cons_self, hc⟩
      simpa [DrainPc.discards, ConsumerPc.feeds] using this
  | _ => rfl

/-! ### The steps of the drain -/

section Steps

variable {hop c length : ℕ}

variable {plan : RoutingPlan}

theorem sorted_holds {count m : ℕ} (h : plan.UpTo count m) (hrefs : c ∉ plan.distinctReferences) :
    DrainPc.Holds hop c length (.groups plan.sorted plan.sorted.distinctReferences) := by
  refine ⟨h.ascending, fun hmem => hrefs ?_⟩
  rw [RoutingPlan.sorted, List.mem_insertionSort] at hmem
  exact hmem

theorem planNext_holds {count m : ℕ} (h : plan.UpTo count m) (hrefs : c ∉ plan.distinctReferences) :
    (planNext count plan m).Holds hop c length := by
  rw [planNext]
  split
  · exact ⟨hrefs, h⟩
  · split
    · trivial
    · exact sorted_holds h hrefs

theorem planReferenceNext_holds {count m tf r : ℕ} (h : plan.UpTo count m)
    (hrefs : c ∉ plan.distinctReferences) :
    (planReferenceNext count plan m tf r).Holds hop c length := by
  rw [planReferenceNext]
  split
  · exact ⟨hrefs, h, ‹_›⟩
  · exact planNext_holds (h.addUnrouted m).succ hrefs

theorem planStep_holds {config : ChannelConfig} {count : ℕ} {pc : PlanPc}
    (hrole : config.roles c = .measurement)
    (h : DrainPc.Holds hop c length (.planning count plan pc)) :
    (planStep config count plan pc).Holds hop c length := by
  obtain ⟨hrefs, h⟩ := h
  cases pc with
  | role m =>
    rw [planStep]
    split
    · exact planNext_holds h.succ hrefs
    · exact ⟨hrefs, h⟩
  | transfer m => exact planReferenceNext_holds h hrefs
  | referenceRole m tf r =>
    rw [planStep]
    split
    · rename_i href
      refine ⟨hrefs, h.1, h.2, ?_⟩
      rintro rfl
      rw [hrole] at href
      cases href
    · exact planReferenceNext_holds h.1 hrefs
  | referenceTransfer m tf r =>
    rw [planStep]
    split
    · refine planNext_holds (h.1.addRoute h.2.1 tf) ?_
      rw [RoutingPlan.addRoute]
      split
      · exact hrefs
      · intro hmem
        rcases List.mem_append.mp hmem with hmem | hmem
        · exact hrefs hmem
        · exact h.2.2 (List.mem_singleton.mp hmem).symm
    · exact planReferenceNext_holds h.1 hrefs

variable {todo : List (TransferRoute × ℕ)} {s : CaptureRun} {g : DrainGroup} {hops : ℕ}

theorem peekNext_holds (h : g.Spares c)
    (htodo : hop ≤ length ∨ ∀ route ∈ g.routes, route.1.measurementChannel = c → route ∈ todo) :
    (peekNext g hops todo).Holds hop c length := by
  cases todo with
  | nil =>
    refine ⟨h, fun hex => ?_⟩
    obtain ⟨route, hroute, hc⟩ := hex
    exact htodo.resolve_right fun hall => List.not_mem_nil (hall route hroute hc)
  | cons route todo => exact ⟨h, htodo⟩

theorem le_availableToRead_of_peek {ch : ℕ}
    (h : ¬ ((s.bus.rings ch).peek hop).length ≠ hop) : hop ≤ s.bus.availableToRead ch := by
  have hlen := not_not.mp h
  rw [BoundedQueue.peek, List.length_take] at hlen
  rw [CaptureBus.availableToRead]
  omega

theorem routePeeking_holds
    (h : DrainPc.Holds hop c (s.bus.availableToRead c) (.routePeeking g hops todo)) :
    (s.drainStep hop (.routePeeking g hops todo)).con.Holds hop c (s.bus.availableToRead c) := by
  obtain ⟨hspares, htodo⟩ := h
  cases todo with
  | nil => exact (peekNext_holds hspares htodo : (peekNext g hops []).Holds hop c _)
  | cons route todo =>
    simp only [CaptureRun.drainStep]
    split
    · exact ⟨hspares.ascending, hspares.refs⟩
    · rename_i hfull
      refine peekNext_holds hspares ?_
      rcases htodo with hlen | hall
      · exact .inl hlen
      · by_cases hc : route.1.measurementChannel = c
        · exact .inl (hc ▸ le_availableToRead_of_peek hfull)
        · refine .inr fun other hother hoc => ?_
          rcases List.mem_cons.mp (hall other hother hoc) with rfl | hmem
          · exact absurd hoc hc
          · exact hmem

theorem routeDiscarding_holds
    (h : DrainPc.Holds hop c (s.bus.availableToRead c) (.routeDiscarding g hops todo)) :
    (s.drainStep hop (.routeDiscarding g hops todo)).con.Holds hop c
      ((s.drainStep hop (.routeDiscarding g hops todo)).bus.availableToRead c) := by
  obtain ⟨hspares, hpair, hlen⟩ := h
  cases todo with
  | nil => exact hspares
  | cons route todo =>
    obtain ⟨hhead, htail⟩ := List.pairwise_cons.mp hpair
    have hrest : (∃ other ∈ todo, other.1.measurementChannel = c) →
        hop ≤ (s.bus.discardRing route.1.measurementChannel hop).availableToRead c := by
      rintro ⟨other, hother, hoc⟩
      have hlt := hhead other hother
      have hne : c ≠ route.1.measurementChannel := by omega
      have hle := hlen ⟨other, List.mem_cons_of_mem _ hother, hoc⟩
      rw [CaptureBus.availableToRead, CaptureBus.rings_discardRing, if_neg hne]
      exact hle
    simp only [CaptureRun.drainStep, discardNext]
    split <;> exact ⟨hspares, htail, hrest⟩

theorem roleNext_holds (role : ChannelRole) : (roleNext role).Holds hop c length := by
  cases role <;> trivial

theorem drainStep_holds {pc : DrainPc} (hrole : s.bus.config.roles c = .measurement)
    (h : pc.Holds hop c (s.bus.availableToRead c)) :
    (s.drainStep hop pc).con.Holds hop c ((s.drainStep hop pc).bus.availableToRead c) := by
  cases pc with
  | gateCheck =>
    simp only [CaptureRun.drainStep]
    split <;> trivial
  | counting => exact planNext_holds (RoutingPlan.upTo_empty _ _) List.not_mem_nil
  | planning count plan pc => exact planStep_holds hrole h
  | searching role ch =>
    simp only [CaptureRun.drainStep]
    split
    · split <;> trivial
    · exact roleNext_holds role
  | roleRing role ch =>
    simp only [CaptureRun.drainStep]
    split
    · trivial
    · exact roleNext_holds role
  | roleSampling role ch => trivial
  | rolePeeking role ch hops =>
    cases hops with
    | zero => exact roleNext_holds role
    | succ hops =>
      simp only [CaptureRun.drainStep]
      split
      · exact roleNext_holds role
      · rename_i hfull
        intro hc
        exact hc ▸ le_availableToRead_of_peek hfull
  | roleDiscarding role ch hops => trivial
  | groups plan refs =>
    cases refs with
    | nil => trivial
    | cons ref refs =>
      exact ⟨h.1, fun heq => h.2 (heq ▸ List.mem_cons_self),
        fun hmem => h.2 (List.mem_cons_of_mem _ hmem)⟩
  | refRing g =>
    simp only [CaptureRun.drainStep]
    split
    · exact h
    · exact ⟨h.ascending, h.refs⟩
  | refSampling g => exact h
  | routeRing g todo available =>
    cases todo with
    | nil => exact h
    | cons route todo =>
      simp only [CaptureRun.drainStep]
      split <;> exact h
  | routeSampling g route todo available => exact h
  | hopCount g available => exact h
  | refPeeking g hops =>
    cases hops with
    | zero => exact ⟨h.ascending, h.refs⟩
    | succ hops =>
      simp only [CaptureRun.drainStep]
      split
      · exact ⟨h.ascending, h.refs⟩
      · exact peekNext_holds h (.inr fun _ hroute _ => hroute)
  | routePeeking g hops todo =>
    have hbus := (drainStep_frame hop s (.routePeeking g hops todo)).1
    rw [hbus]
    exact routePeeking_holds h
  | refDiscarding g hops =>
    refine ⟨h.1, g.routes_pairwise h.1.ascending, fun hex => ?_⟩
    show hop ≤ (s.bus.discardRing g.ref hop).availableToRead c
    rw [CaptureBus.availableToRead, CaptureBus.rings_discardRing, if_neg h.1.ref_ne.symm]
    exact h.2 hex
  | routeDiscarding g hops todo => exact routeDiscarding_holds h
  | pushing g hops route todo => exact h

end Steps

/-! ### The resync -/

/-- What the drain of a resync has taken from the channel, and how it compares with the largest
of its discards: as long as the channel's turn is to come, the ring holds at least as much. -/
def ConsumerPc.Took (c length taken : ℕ) : ConsumerPc → Prop
  | .service (.sampling _ largest ch) =>
    if ch ≤ c then taken = 0 ∧ largest ≤ length else largest = taken
  | .service (.discarding _ largest ch count) =>
    if ch < c then taken = 0 ∧ largest ≤ length ∧ count ≤ length
    else if ch = c then taken = 0 ∧ largest ≤ count ∧ count ≤ length
    else largest = taken ∧ count ≤ taken
  | .service (.lowering _ largest) => largest = taken
  | _ => taken = 0

theorem ConsumerPc.Took.grow {c length length' taken : ℕ} {pc : ConsumerPc}
    (h : pc.Took c length taken) (hle : length ≤ length') : pc.Took c length' taken := by
  match pc with
  | .waiting | .drain _ => exact h
  | .service pc =>
    cases pc with
    | sampling timedOut largest ch =>
      simp only [Took] at h ⊢
      split at h
      · rw [if_pos (by assumption)]
        exact ⟨h.1, h.2.trans hle⟩
      · rw [if_neg (by assumption)]
        exact h
    | discarding timedOut largest ch count =>
      simp only [Took] at h ⊢
      split at h
      · rw [if_pos (by assumption)]
        exact ⟨h.1, h.2.1.trans hle, h.2.2.trans hle⟩
      · rw [if_neg (by assumption)]
        split at h
        · rw [if_pos (by assumption)]
          exact ⟨h.1, h.2.1, h.2.2.trans hle⟩
        · rw [if_neg (by assumption)]
          exact h
    | _ => exact h

variable {s : CaptureRun} {pc : ServicePc} {taken : ℕ}

theorem serviceStep_account {c : ℕ} (now : ℕ)
    (hcon : s.con = .service pc) (htook : s.con.Took c (s.bus.availableToRead c) taken) :
    (s.serviceStep now pc).bus.resyncLostFrames + (s.serviceStep now pc).bus.availableToRead c +
        s.takenAfter c taken =
      s.bus.resyncLostFrames + s.bus.availableToRead c + taken := by
  rw [hcon] at htook
  rw [CaptureRun.takenAfter, hcon]
  cases pc with
  | scanning | gateCheck | sampling =>
    simp only [CaptureRun.serviceStep]
    (repeat' split) <;> rfl
  | raising pc => cases pc <;> rfl
  | readClock =>
    simp only [CaptureRun.serviceStep, CaptureBus.noteWaiting]
    split <;> rfl
  | loadSeen | loadMark => rfl
  | loadActive timedOut acknowledged =>
    simp only [CaptureRun.serviceStep]
    (repeat' split) <;> rfl
  | discarding timedOut largest ch count =>
    show s.bus.resyncLostFrames + (s.bus.discardRing ch count).availableToRead c +
        (if ch = c then taken + ((s.bus.rings ch).discard count).1 else taken) = _
    rw [CaptureBus.availableToRead, CaptureBus.rings_discardRing, CaptureBus.availableToRead,
      BoundedQueue.discard_fst]
    by_cases hch : ch = c
    · subst hch
      rw [if_pos rfl, if_pos rfl, List.length_drop]
      omega
    · rw [if_neg (Ne.symm hch), if_neg hch]
  | lowering timedOut largest =>
    obtain rfl : largest = taken := htook
    show s.bus.resyncLostFrames + largest + s.bus.availableToRead c + 0 = _
    omega

/-- And what it leaves alone. -/
theorem serviceStep_frame (s : CaptureRun) (now : ℕ) (pc : ServicePc) :
    (s.serviceStep now pc).cb = s.cb ∧ (s.serviceStep now pc).dev = s.dev ∧
      (s.serviceStep now pc).bus.drops = s.bus.drops ∧
      (s.serviceStep now pc).bus.config = s.bus.config := by
  cases pc with
  | scanning | gateCheck | sampling | loadActive =>
    simp only [CaptureRun.serviceStep]
    (repeat' split) <;> simp [CaptureBus.countTimeout]
  | raising pc => cases pc <;> exact ⟨rfl, rfl, rfl, rfl⟩
  | readClock =>
    simp only [CaptureRun.serviceStep, CaptureBus.noteWaiting]
    split <;> simp
  | loadSeen | loadMark | discarding | lowering => exact ⟨rfl, rfl, rfl, rfl⟩

/-- A resync leads to a drain that has not begun. -/
theorem serviceStep_holds (hop c length : ℕ) (s : CaptureRun) (now : ℕ) (pc : ServicePc) :
    (s.serviceStep now pc).con.Holds hop c length := by
  cases pc with
  | scanning | gateCheck | sampling | loadActive =>
    simp only [CaptureRun.serviceStep]
    (repeat' split) <;> trivial
  | raising pc => cases pc <;> trivial
  | readClock | loadSeen | loadMark | discarding | lowering => trivial

/-- If no other ring holds more, the largest discard is the channel's own. -/
theorem serviceStep_took {c : ℕ} (now : ℕ) (hc : c < kMaxChannels) (hcon : s.con = .service pc)
    (htook : s.con.Took c (s.bus.availableToRead c) taken)
    (hless : ∀ ch ∈ s.con.samples, ch ≠ c →
      s.bus.availableToRead ch ≤ if ch < c then s.bus.availableToRead c else taken) :
    (s.serviceStep now pc).con.Took c ((s.serviceStep now pc).bus.availableToRead c)
      (s.takenAfter c taken) := by
  rw [hcon] at htook hless
  rw [CaptureRun.takenAfter, hcon]
  cases pc with
  | scanning | gateCheck =>
    simp only [CaptureRun.serviceStep]
    (repeat' split) <;> exact htook
  | loadActive =>
    obtain rfl : taken = 0 := htook
    simp only [CaptureRun.serviceStep]
    (repeat' split) <;> simp [ConsumerPc.Took]
  | raising pc => cases pc <;> exact htook
  | readClock | loadSeen | loadMark => exact htook
  | sampling timedOut largest ch =>
    simp only [CaptureRun.serviceStep]
    simp only [ConsumerPc.Took] at htook
    split
    · rename_i hch
      simp only [ConsumerPc.samples, if_pos hch, Option.mem_some_iff, forall_eq'] at hless
      simp only [ConsumerPc.Took]
      rcases Nat.lt_trichotomy ch c with hlt | rfl | hgt
      · rw [if_pos (by omega)] at htook
        have hle := hless (by omega)
        rw [if_pos hlt] at hle ⊢
        exact ⟨htook.1, htook.2, hle⟩
      · rw [if_pos (Nat.le_refl _)] at htook
        rw [if_neg (Nat.lt_irrefl _), if_pos rfl]
        exact ⟨htook.1, htook.2, Nat.le_refl _⟩
      · rw [if_neg (by omega)] at htook
        have hle := hless (by omega)
        rw [if_neg (by omega)] at hle
        rw [if_neg (by omega), if_neg (by omega)]
        exact ⟨htook, hle⟩
    · rw [if_neg (by omega)] at htook
      exact htook
  | discarding timedOut largest ch count =>
    simp only [ConsumerPc.Took] at htook
    show (ConsumerPc.service (.sampling timedOut (max largest ((s.bus.rings ch).discard count).1)
      (ch + 1))).Took c ((s.bus.discardRing ch count).availableToRead c)
        (if ch = c then taken + ((s.bus.rings ch).discard count).1 else taken)
    simp only [ConsumerPc.Took]
    rw [CaptureBus.availableToRead, CaptureBus.rings_discardRing, BoundedQueue.discard_fst]
    rw [CaptureBus.availableToRead] at htook
    rcases Nat.lt_trichotomy ch c with hlt | rfl | hgt
    · rw [if_pos hlt] at htook
      rw [if_pos (by omega), if_neg (by omega), if_neg (by omega)]
      refine ⟨htook.1, ?_⟩
      omega
    · rw [if_neg (Nat.lt_irrefl _), if_pos rfl] at htook
      rw [if_neg (by omega), if_pos rfl]
      omega
    · rw [if_neg (by omega), if_neg (by omega)] at htook
      rw [if_neg (by omega), if_neg (by omega)]
      omega
  | lowering => rfl

/-- Outside the resync nothing has been taken. -/
theorem drainStep_took (hop c length : ℕ) (s : CaptureRun) (pc : DrainPc) :
    (s.drainStep hop pc).con.Took c length 0 := by
  have hnext (role : ChannelRole) : (roleNext role).Took c length 0 := by
    cases role <;> rfl
  cases pc with
  | gateCheck =>
    simp only [CaptureRun.drainStep]
    split <;> rfl
  | searching role ch =>
    simp only [CaptureRun.drainStep]
    split
    · split <;> rfl
    · exact hnext role
  | roleRing role ch =>
    simp only [CaptureRun.drainStep]
    split
    · rfl
    · exact hnext role
  | rolePeeking role ch hops =>
    cases hops with
    | zero => exact hnext role
    | succ hops =>
      simp only [CaptureRun.drainStep]
      split
      · exact hnext role
      · rfl
  | groups plan refs => cases refs <;> rfl
  | refRing g =>
    simp only [CaptureRun.drainStep]
    split <;> rfl
  | routeRing g todo available =>
    cases todo with
    | nil => rfl
    | cons route todo =>
      simp only [CaptureRun.drainStep]
      split <;> rfl
  | refPeeking g hops =>
    cases hops with
    | zero => rfl
    | succ hops =>
      simp only [CaptureRun.drainStep]
      split <;> rfl
  | routePeeking g hops todo =>
    cases todo with
    | nil => rfl
    | cons route todo =>
      simp only [CaptureRun.drainStep]
      split <;> rfl
  | routeDiscarding g hops todo => cases todo <;> rfl
  | _ => rfl

/-! ### The session as a whole -/

/-- The invariant of a session that began with the ledger at `start`. -/
structure LossInv (hop c : ℕ) (start : ℤ) (s : LossRun) : Prop where
  quiet : s.run.dev = .idle
  role : s.run.bus.config.roles c = .measurement
  bound : s.run.cb.Bound c
  holds : s.run.con.Holds hop c (s.run.bus.availableToRead c)
  took : s.run.con.Took c (s.run.bus.availableToRead c) s.taken
  account : s.Accounts c start

namespace LossInv

variable {hop c : ℕ} {start : ℤ} {s : LossRun}

section

variable (hs : LossInv hop c start s)

include hs

theorem enter {present : Option (List Bool)} {numChannels numSamples : ℤ} (hcb : s.run.cb = .idle)
    (ha : (present.getD []).getD c false = true ∧ (c : ℤ) < numChannels) :
    LossInv hop c start
      (s.advance hop c (.enter present numChannels numSamples)
        (s.run.enter present numChannels numSamples)) := by
  refine ⟨hs.quiet, hs.role, ⟨?_, ha.2, List.length_range'⟩, hs.holds, hs.took, ?_⟩
  · rw [FrameBlock.data, CaptureRun.nextBlock, if_pos ha.1]
  · have haccount := hs.account
    simp only [LossRun.Accounts, LossRun.advance, hcb, CallbackPc.arrives, CallbackPc.unaccounted,
      CaptureAct.isConsumer, CaptureRun.enter, Nat.add_zero] at haccount ⊢
    exact haccount

variable {t : CaptureRun} {a : CaptureAct}

theorem callback (hc : c < kMaxChannels) (h : s.run.callbackStep = some t)
    (hprepared : s.run.cb.isSnapshotting = true → c < s.run.bus.preparedChannels) :
    LossInv hop c start (s.advance hop c .callback t) := by
  obtain ⟨hdev, hcon, hconfig, -⟩ := callbackStep_frame h
  obtain ⟨hbound, haccount⟩ := callbackStep_account h hc hs.role hs.bound hprepared
  have hgrow : s.run.bus.availableToRead c ≤ t.bus.availableToRead c :=
    ((callbackStep_cases h).grow.2.2 c).length_le
  refine ⟨hdev.trans hs.quiet, ?_, hbound, ?_, ?_, ?_⟩
  · show t.bus.config.roles c = .measurement
    rw [hconfig]
    exact hs.role
  · show t.con.Holds hop c (t.bus.availableToRead c)
    rw [hcon]
    exact hs.holds.grow hgrow
  · show t.con.Took c (t.bus.availableToRead c) s.taken
    rw [hcon]
    exact hs.took.grow hgrow
  · have hbefore := hs.account
    simp only [LossRun.Accounts, LossRun.advance, CaptureAct.isConsumer, Bool.false_eq_true,
      if_false, Nat.add_zero] at hbefore ⊢
    push_cast
    omega

theorem service (hc : c < kMaxChannels) {now : ℕ} {pc : ServicePc} (hcon : s.run.con = .service pc)
    (hless : ∀ ch ∈ s.run.con.samples, ch ≠ c →
      s.run.bus.availableToRead ch ≤ if ch < c then s.run.bus.availableToRead c else s.taken) :
    LossInv hop c start (s.advance hop c (.consumer now) (s.run.serviceStep now pc)) := by
  obtain ⟨hcb, hdev, hdrops, hconfig⟩ := serviceStep_frame s.run now pc
  have haccount := serviceStep_account now hcon hs.took
  refine ⟨hdev.trans hs.quiet, ?_, ?_, serviceStep_holds hop c _ s.run now pc,
    serviceStep_took now hc hcon hs.took hless, ?_⟩
  · show (s.run.serviceStep now pc).bus.config.roles c = .measurement
    rw [hconfig]
    exact hs.role
  · show (s.run.serviceStep now pc).cb.Bound c
    rw [hcb]
    exact hs.bound
  · have hbefore := hs.account
    simp only [LossRun.Accounts, LossRun.advance, CaptureAct.isConsumer, if_true, hcb, hdrops, hcon,
      ConsumerPc.feeds, Nat.add_zero] at hbefore ⊢
    have harrives : s.run.cb.arrives s.run.cb = 0 := by
      cases s.run.cb <;> rfl
    rw [harrives]
    push_cast
    omega

theorem drain {now : ℕ} {pc : DrainPc} (hcon : s.run.con = .drain pc) :
    LossInv hop c start (s.advance hop c (.consumer now) (s.run.drainStep hop pc)) := by
  obtain ⟨hbus, hcb, hdev⟩ := drainStep_frame hop s.run pc
  have hpc : pc.Holds hop c (s.run.bus.availableToRead c) := by
    have := hs.holds
    rwa [hcon] at this
  have hsame : (s.run.drainStep hop pc).bus.drops = s.run.bus.drops ∧
      (s.run.drainStep hop pc).bus.resyncLostFrames = s.run.bus.resyncLostFrames ∧
      (s.run.drainStep hop pc).bus.config = s.run.bus.config := by
    rw [hbus]
    split <;> exact ⟨rfl, rfl, rfl⟩
  have htaken : s.run.takenAfter c s.taken = s.taken := by
    rw [CaptureRun.takenAfter, hcon]
  have hzero : s.taken = 0 := by
    have := hs.took
    rwa [hcon] at this
  refine ⟨hdev.trans hs.quiet, ?_, ?_, drainStep_holds hs.role hpc, ?_, ?_⟩
  · show (s.run.drainStep hop pc).bus.config.roles c = .measurement
    rw [hsame.2.2]
    exact hs.role
  · show (s.run.drainStep hop pc).cb.Bound c
    rw [hcb]
    exact hs.bound
  · show (s.run.drainStep hop pc).con.Took c _ (s.run.takenAfter c s.taken)
    rw [htaken, hzero]
    exact drainStep_took hop c _ s.run pc
  · have hbefore := hs.account
    have haccount := drainStep_account hpc
    have harrives : s.run.cb.arrives s.run.cb = 0 := by
      cases s.run.cb <;> rfl
    simp only [LossRun.Accounts, LossRun.advance, CaptureAct.isConsumer, if_true, hcb, hsame.1,
      hsame.2.1, hcon, htaken, harrives, Nat.add_zero] at hbefore ⊢
    push_cast
    omega

theorem still (ha : a.isConsumer = false) (hcb : t.cb = s.run.cb) (hdev : t.dev = s.run.dev)
    (hrings : t.bus.rings = s.run.bus.rings) (hdrops : t.bus.drops = s.run.bus.drops)
    (hlost : t.bus.resyncLostFrames = s.run.bus.resyncLostFrames)
    (hrole : t.bus.config.roles c = .measurement)
    (hholds : t.con.Holds hop c (s.run.bus.availableToRead c))
    (htook : t.con.Took c (s.run.bus.availableToRead c) s.taken) :
    LossInv hop c start (s.advance hop c a t) := by
  have havailable : t.bus.availableToRead c = s.run.bus.availableToRead c := by
    rw [CaptureBus.availableToRead, hrings, CaptureBus.availableToRead]
  have harrives : s.run.cb.arrives s.run.cb = 0 := by
    cases s.run.cb <;> rfl
  refine ⟨hdev.trans hs.quiet, hrole, ?_, ?_, ?_, ?_⟩
  · show t.cb.Bound c
    rw [hcb]
    exact hs.bound
  · show t.con.Holds hop c (t.bus.availableToRead c)
    rw [havailable]
    exact hholds
  · show t.con.Took c (t.bus.availableToRead c) (if a.isConsumer then _ else s.taken)
    rw [havailable, ha]
    exact htook
  · have hbefore := hs.account
    simp only [LossRun.Accounts, LossRun.advance, ha, Bool.false_eq_true, if_false, havailable,
      hdrops, hlost, hcb, harrives, Nat.add_zero] at hbefore ⊢
    exact hbefore

theorem step (hc : c < kMaxChannels) {t : LossRun}
    (h : (lossRuns hop c).step s a = some t) (hok : CountsAlike c s a t) :
    LossInv hop c start t := by
  simp only [lossRuns, Option.ite_none_right_eq_some] at h
  obtain ⟨ha, h⟩ := h
  obtain ⟨run, hrun, rfl⟩ := Option.map_eq_some_iff.mp h
  cases a with
  | enter present numChannels numSamples =>
    simp only [captureRuns, Option.ite_none_right_eq_some] at hrun
    obtain ⟨hidle, hrun⟩ := hrun
    cases hrun
    exact hs.enter (CallbackPc.isIdle_iff.mp (Bool.and_eq_true_iff.mp hidle).1) ha
  | callback => exact hs.callback hc hrun hok
  | prepare | device => exact ha.elim
  | setActive active =>
    cases hrun
    exact hs.still rfl rfl rfl rfl rfl rfl hs.role hs.holds hs.took
  | setTransferFunction channel tf =>
    cases hrun
    refine hs.still rfl rfl rfl rfl rfl rfl ?_ hs.holds hs.took
    show (s.run.bus.config.setTransferFunction channel tf).roles c = .measurement
    rw [ChannelConfig.setTransferFunction_roles]
    exact hs.role
  | setRole channel role =>
    cases hrun
    exact hs.still rfl rfl rfl rfl rfl rfl (ChannelConfig.setRole_measurement hs.role ha) hs.holds
      hs.took
  | tick =>
    simp only [captureRuns] at hrun
    split at hrun
    · rename_i hcon
      cases hrun
      refine hs.still rfl rfl rfl rfl rfl rfl hs.role trivial ?_
      have := hs.took
      rw [hcon] at this
      exact this
    · cases hrun
  | consumer now =>
    simp only [captureRuns] at hrun
    split at hrun
    · cases hrun
    · rename_i pc hcon
      cases hrun
      exact hs.service hc hcon hok
    · rename_i pc hcon
      cases hrun
      exact hs.drain hcon

end

end LossInv

/-- **Headline.** In every session in which the shared count is the channel's own, the ledger of
the channel shows what it showed at the start whenever everything is at rest. -/
theorem ledger_constant (hop c : ℕ) {s : LossRun} (hs : (lossRuns hop c).init s)
    (acts : List CaptureAct) (hok : (lossRuns hop c).AlongSteps (CountsAlike c) s acts) :
    (lossRuns hop c).AlongSteps (fun _ _ t => t.run.AtRest → t.ledger c = s.ledger c) s acts := by
  obtain ⟨⟨hcb, hdev, hcon⟩, hc, hrole, hdelivered, hfed, htaken⟩ := hs
  refine Machine.AlongSteps.of_invariant (LossInv hop c (s.ledger c)) ?_ ?_ hok
  · intro u a t hu hstep hcounts
    have ht := hu.step hc hstep hcounts
    refine ⟨ht, fun hrest => ?_⟩
    have haccount := ht.account
    have htook := ht.took
    rw [hrest.2.2] at htook
    simp only [LossRun.Accounts, hrest.1, CallbackPc.unaccounted] at haccount
    rw [LossRun.ledger]
    have : t.taken = 0 := htook
    omega
  · refine ⟨hdev, hrole, ?_, ?_, ?_, ?_⟩
    · rw [hcb]
      trivial
    · rw [hcon]
      trivial
    · rw [hcon]
      exact htaken
    · simp only [LossRun.Accounts, LossRun.ledger, hcb, CallbackPc.unaccounted]
      omega

/-! ### A backlog on a channel without a reference -/

/-- A session on the first channel of a bus that the consumer has just attached itself to. -/
def LossRun.start (b : CaptureBus ℕ) : LossRun where
  run := .start b

theorem lossRuns_init_twoChannels :
    (lossRuns 1 0).init (.start (twoChannels 8)) :=
  ⟨⟨rfl, rfl, rfl⟩, by decide, rfl, rfl, rfl, rfl⟩

/-- A block that fills both rings alike, and a resync that turns away the next one. -/
theorem ledger_constant_roleAdded :
    (lossRuns 1 0).AlongSteps
      (fun _ _ t => t.run.AtRest → t.ledger 0 = (LossRun.start (twoChannels 8)).ledger 0)
      (.start (twoChannels 8)) roleAdded :=
  ledger_constant 1 0 lossRuns_init_twoChannels roleAdded (by decide +kernel)

/-- The two channels, and a measurement channel of another transfer function without a reference. -/
def threeChannels : CaptureBus ℕ :=
  { twoChannels 8 with
    config := ((twoChannels 8).config.setRole 2 .measurement).setTransferFunction 2 1
    preparedChannels := 3 }

/-- A block is taken and handed on, up to the third ring's share. Then a fourth channel gets a role,
a block sees the gate, and the consumer drains. -/
def backlogged : List CaptureAct :=
  .enter (some [true, true, true]) 3 1 :: List.replicate 10 .callback ++
  .tick :: List.replicate 95 (.consumer 0) ++
  [.setRole 3 .measurement, .tick] ++ List.replicate 74 (.consumer 0) ++
  .enter (some [true, true, true]) 3 1 :: List.replicate 4 .callback ++
  .tick :: List.replicate 223 (.consumer 0)

/-- What the third ring held is charged to the first channel. -/
theorem ledger_overcounts :
    (lossRuns 1 0).init (.start threeChannels) ∧
      ¬ (lossRuns 1 0).AlongSteps
        (fun _ _ t => t.run.AtRest → t.ledger 0 = (LossRun.start threeChannels).ledger 0)
        (.start threeChannels) backlogged :=
  ⟨⟨⟨rfl, rfl, rfl⟩, by decide, rfl, rfl, rfl, rfl⟩, by decide +kernel⟩

end RtaTool
