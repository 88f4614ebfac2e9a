import RtaTool.Measure.CaptureThreads

/-!
# The resync gate

The consumer may empty the rings only while nobody writes them. It raises a gate, waits for a
callback that saw the gate, and takes that for proof that any earlier block has returned. Two
shortcuts around this proof are unsound.

The bus being inactive does not mean that no block is in flight: `AudioIo::stop` clears the flag
first and removes the callback after. And a callback that saw an *earlier* gate may be late to
count it: if its count falls between the load and the store of a new raise, the consumer finds
itself acknowledged by a gate nobody saw, while the next block has gone through.

`GateKept` asks that neither happens, and nothing else: not of timeouts, not of roles, not of the
order in which `prepare` and the consumer raise the gate.

## Main definitions

* `ResyncIsClean` -- the property, on steps
* `GateKept` -- the condition, on steps
* `GateInv` -- the invariant

## Main results

* `resync_clean` -- the property along every run that meets the condition
* `idle_drain_splits_block` -- a run that does not
-/

namespace RtaTool

/-! ### The property and the condition -/

/-- The consumer is about to lower the gate, at the end of a resync that did not time out. -/
def ConsumerPc.atLowering : ConsumerPc → Bool
  | .service (.lowering false _) => true
  | _ => false

/-- The consumer is about to see whether the bus is active, with no acknowledgement. -/
def ConsumerPc.atActiveUnacknowledged : ConsumerPc → Bool
  | .service (.loadActive _ false) => true
  | _ => false

/-- The consumer is raising the gate and has loaded what it will wait to change. -/
def ConsumerPc.marking : ConsumerPc → Bool
  | .service (.raising (.storeMark _)) | .service (.raising .storePending) => true
  | _ => false

/-- The callback is about to count a gate it saw. -/
def CallbackPc.atCount : CallbackPc → Bool
  | .gateSeen _ => true
  | _ => false

/-- A step of the callback. -/
def CaptureAct.isCallback : CaptureAct → Bool
  | .callback => true
  | _ => false

namespace CaptureRun

/-- When the gate is lowered, unless on the timeout, every ring is empty and no block is between
its gate check and its last write; and the next block to pass the gate finds every ring empty, so
that it starts each of them. -/
def ResyncIsClean (s : CaptureRun) (a : CaptureAct) (t : CaptureRun) : Prop :=
  (s.con.atLowering ∧ a.isConsumer → t.RingsEmpty ∧ ¬ t.cb.Inside) ∧
    (¬ s.cb.Inside ∧ t.cb.Inside → s.afterResync = true → s.RingsEmpty)

/-- No block is past the gate when the consumer, unacknowledged, reads that the bus is inactive;
and no gate is counted after it was lowered while the consumer is raising the next. -/
def GateKept (s : CaptureRun) (a : CaptureAct) (_ : CaptureRun) : Prop :=
  (s.con.atActiveUnacknowledged ∧ a.isConsumer → s.bus.active = false → ¬ s.cb.Inside) ∧
    (s.cb.atCount ∧ a.isCallback → s.con.marking → s.bus.resyncPending = true)

instance (s : CaptureRun) (a : CaptureAct) (t : CaptureRun) : Decidable (ResyncIsClean s a t) :=
  inferInstanceAs (Decidable ((_ → _) ∧ (_ → _ → _)))

instance (s : CaptureRun) (a : CaptureAct) (t : CaptureRun) : Decidable (GateKept s a t) :=
  inferInstanceAs (Decidable ((_ → _ → _) ∧ (_ → _ → _)))

/-! ### The invariant -/

/-- What holds at each point of `serviceResyncAsConsumer`. Once the gate has been found up it stays
up; once it has been acknowledged nobody is past it, and rings stay as the drain leaves them. -/
def ServiceInv (b : CaptureBus ℕ) (inside : Prop) : ServicePc → Prop
  | .scanning _ _ | .raising .loadSeen | .gateCheck => True
  | .raising (.storeMark seen) => b.gateSeen ≠ seen → b.resyncPending = true ∧ ¬ inside
  | .raising .storePending =>
    b.gateSeen ≠ b.gateSeenAtRaise → b.resyncPending = true ∧ ¬ inside
  | .readClock | .loadSeen _ => b.resyncPending = true
  | .loadMark _ seen => b.resyncPending = true ∧ (inside → seen = b.gateSeenAtRaise)
  | .loadActive _ acknowledged => b.resyncPending = true ∧ (acknowledged = true → ¬ inside)
  | .sampling timedOut _ ch =>
    b.resyncPending = true ∧
      (timedOut = false → ¬ inside ∧ ∀ j < ch, (b.rings j).items = [])
  | .discarding timedOut _ ch count =>
    b.resyncPending = true ∧
      (timedOut = false → ¬ inside ∧ (∀ j < ch, (b.rings j).items = []) ∧
        (b.rings ch).items.length ≤ count)
  | .lowering timedOut _ =>
    b.resyncPending = true ∧
      (timedOut = false → ¬ inside ∧ ∀ j < kMaxChannels, (b.rings j).items = [])

/-- The invariant of the gate. -/
structure GateInv (s : CaptureRun) : Prop where
  quiesced : s.dev ≠ .idle → s.cb = .idle
  deviceMark : ∀ seen, s.dev = .raising (.storeMark seen) → seen = s.bus.gateSeen
  /-- An acknowledged gate has nobody past it. -/
  acknowledged : s.bus.resyncPending = true → s.bus.gateSeen ≠ s.bus.gateSeenAtRaise →
    ¬ s.cb.Inside
  service : ∀ pc, s.con = .service pc → ServiceInv s.bus s.cb.Inside pc
  afterResync : s.afterResync = true → s.RingsEmpty ∧ ¬ s.cb.Inside

theorem gateInv_start {b : CaptureBus ℕ} : GateInv (start b) where
  quiesced h := absurd rfl h
  deviceMark _ h := nomatch h
  acknowledged _ _ h := h
  service _ h := nomatch h
  afterResync h := nomatch h

/-- The other threads leave the consumer what it relies on: the gate it found up stays up, nobody
enters past it, and then nobody writes. A new acknowledgement, and a mark that `prepare` moved, come
with nobody inside. -/
theorem ServiceInv.env {b b' : CaptureBus ℕ} {inside inside' : Prop} {pc : ServicePc}
    (h : ServiceInv b inside pc) (hpending : b.resyncPending = true → b'.resyncPending = true)
    (hinside : b.resyncPending = true → inside' → inside)
    (hrings : ¬ inside → b'.rings = b.rings)
    (hseen : b'.gateSeen ≠ b.gateSeen →
      ¬ inside' ∧ ((ConsumerPc.service pc).marking → b.resyncPending = true))
    (hmark : b'.gateSeenAtRaise ≠ b.gateSeenAtRaise →
      ¬ inside' ∧ b'.gateSeenAtRaise = b'.gateSeen) : ServiceInv b' inside' pc := by
  cases pc with
  | scanning | gateCheck => trivial
  | raising pc =>
    cases pc with
    | loadSeen => trivial
    | storeMark seen =>
      intro hne
      by_cases hsame : b'.gateSeen = b.gateSeen
      · obtain ⟨hp, hi⟩ := h (hsame ▸ hne)
        exact ⟨hpending hp, fun hi' => hi (hinside hp hi')⟩
      · exact ⟨hpending ((hseen hsame).2 rfl), (hseen hsame).1⟩
    | storePending =>
      intro hne
      by_cases hsame : b'.gateSeen = b.gateSeen
      · by_cases hmarked : b'.gateSeenAtRaise = b.gateSeenAtRaise
        · obtain ⟨hp, hi⟩ := h (hsame ▸ hmarked ▸ hne)
          exact ⟨hpending hp, fun hi' => hi (hinside hp hi')⟩
        · exact absurd (hmark hmarked).2.symm hne
      · exact ⟨hpending ((hseen hsame).2 rfl), (hseen hsame).1⟩
  | readClock | loadSeen => exact hpending h
  | loadMark timedOut seen =>
    refine ⟨hpending h.1, fun hi' => ?_⟩
    by_cases hmarked : b'.gateSeenAtRaise = b.gateSeenAtRaise
    · rw [hmarked]
      exact h.2 (hinside h.1 hi')
    · exact absurd hi' (hmark hmarked).1
  | loadActive timedOut acknowledged =>
    exact ⟨hpending h.1, fun hack hi' => h.2 hack (hinside h.1 hi')⟩
  | sampling timedOut largest ch =>
    refine ⟨hpending h.1, fun hout => ?_⟩
    obtain ⟨hi, hdrained⟩ := h.2 hout
    rw [hrings hi]
    exact ⟨fun hi' => hi (hinside h.1 hi'), hdrained⟩
  | discarding timedOut largest ch count =>
    refine ⟨hpending h.1, fun hout => ?_⟩
    obtain ⟨hi, hdrained⟩ := h.2 hout
    rw [hrings hi]
    exact ⟨fun hi' => hi (hinside h.1 hi'), hdrained⟩
  | lowering timedOut largest =>
    refine ⟨hpending h.1, fun hout => ?_⟩
    obtain ⟨hi, hdrained⟩ := h.2 hout
    rw [hrings hi]
    exact ⟨fun hi' => hi (hinside h.1 hi'), hdrained⟩

/-! ### The steps -/

/-- What the gate sees of a step of the callback. -/
structure CallbackEffect (s t : CaptureRun) : Prop where
  busy : s.cb ≠ .idle
  dev : t.dev = s.dev
  con : t.con = s.con
  pending : t.bus.resyncPending = s.bus.resyncPending
  mark : t.bus.gateSeenAtRaise = s.bus.gateSeenAtRaise
  seen : t.bus.gateSeen ≠ s.bus.gateSeen → s.cb.atCount ∧ ¬ t.cb.Inside
  inside : t.cb.Inside → s.cb.Inside ∨ s.bus.resyncPending = false ∧ t.afterResync = false
  rings : ¬ s.cb.Inside → t.bus.rings = s.bus.rings
  afterResync : t.afterResync = true → s.afterResync = true

variable {s t : CaptureRun}

theorem CallbackStep.effect (h : CallbackStep s t) : CallbackEffect s t := by
  have hbusy : ∀ {pc}, s.cb = pc → pc ≠ .idle → s.cb ≠ .idle := fun heq hne => heq ▸ hne
  cases h with
  | leave f h | see f h | closed f h =>
    exact ⟨hbusy h nofun, rfl, rfl, rfl, rfl, fun hne => absurd rfl hne, False.elim,
      fun _ => rfl, id⟩
  | pass f h hpending =>
    exact ⟨hbusy h nofun, rfl, rfl, rfl, rfl, fun hne => absurd rfl hne,
      fun _ => .inr ⟨hpending, rfl⟩, fun _ => rfl, nofun⟩
  | count f h =>
    exact ⟨hbusy h nofun, rfl, rfl, rfl, rfl, fun _ => ⟨by rw [h]; rfl, id⟩, False.elim,
      fun _ => rfl, id⟩
  | refuse f h =>
    exact ⟨hbusy h nofun, rfl, rfl, rfl, rfl, fun hne => absurd rfl hne, False.elim,
      fun _ => rfl, id⟩
  | snapshot f roles role h =>
    exact ⟨hbusy h nofun, rfl, rfl, rfl, rfl, fun hne => absurd rfl hne,
      fun _ => .inl (by rw [h]; trivial), fun _ => rfl, id⟩
  | limit f roles n h =>
    exact ⟨hbusy h nofun, rfl, rfl, rfl, rfl, fun hne => absurd rfl hne,
      fun _ => .inl (by rw [h]; trivial), fun _ => rfl, id⟩
  | write f roles n ch taken src h hsrc =>
    have hinside : s.cb.Inside := by rw [h]; trivial
    obtain ⟨hp, hm, hg⟩ : (s.bus.writeRing src ch).resyncPending = s.bus.resyncPending ∧
        (s.bus.writeRing src ch).gateSeenAtRaise = s.bus.gateSeenAtRaise ∧
        (s.bus.writeRing src ch).gateSeen = s.bus.gateSeen := by
      cases src <;> exact ⟨rfl, rfl, rfl⟩
    exact ⟨hbusy h nofun, rfl, rfl, hp, hm, fun hne => absurd hg hne, fun _ => .inl hinside,
      fun hnot => absurd hinside hnot, id⟩
  | finish f roles n ch taken h =>
    exact ⟨hbusy h nofun, rfl, rfl, rfl, rfl, fun hne => absurd rfl hne, False.elim,
      fun _ => rfl, id⟩

theorem GateInv.callback (hs : GateInv s) (h : CallbackStep s t)
    (hok : s.cb.atCount → s.con.marking → s.bus.resyncPending = true) : GateInv t := by
  have he := h.effect
  have hdev : s.dev = .idle := by
    by_contra hdev
    exact he.busy (hs.quiesced hdev)
  have hclosed : s.bus.resyncPending = true → t.cb.Inside → s.cb.Inside := by
    intro hp hi
    refine (he.inside hi).resolve_right fun hopen => ?_
    rw [hp] at hopen
    cases hopen.1
  constructor
  · intro hne
    exact absurd (he.dev.trans hdev) hne
  · intro seen hmark
    rw [he.dev, hdev] at hmark
    cases hmark
  · intro hp hne hi
    rw [he.pending] at hp
    by_cases hseen : t.bus.gateSeen = s.bus.gateSeen
    · rw [hseen, he.mark] at hne
      exact hs.acknowledged hp hne (hclosed hp hi)
    · exact (he.seen hseen).2 hi
  · intro pc hcon
    rw [he.con] at hcon
    refine (hs.service pc hcon).env (fun hp => he.pending.trans hp) hclosed he.rings ?_ ?_
    · intro hne
      obtain ⟨hcount, hi⟩ := he.seen hne
      exact ⟨hi, fun hmarking => hok hcount (hcon ▸ hmarking)⟩
    · intro hne
      exact absurd he.mark hne
  · intro hafter
    obtain ⟨hempty, hi⟩ := hs.afterResync (he.afterResync hafter)
    refine ⟨?_, fun hi' => ?_⟩
    · intro ch hch
      rw [he.rings hi]
      exact hempty ch hch
    · rcases he.inside hi' with hin | ⟨-, hnot⟩
      · exact hi hin
      · rw [hafter] at hnot
        cases hnot

/-- `prepare` moves with no block in flight. -/
theorem GateInv.device (hs : GateInv s) (h : DeviceStep s t) : GateInv t := by
  have hidle : ∀ {pc}, s.dev = pc → pc ≠ .idle → s.cb = .idle := fun heq hne =>
    hs.quiesced (heq ▸ hne)
  have hout : s.cb = .idle → ¬ s.cb.Inside := fun hcb hi => by
    rw [hcb] at hi
    exact hi
  cases h with
  | look dev h hdev =>
    have hcb := hidle h nofun
    refine ⟨fun _ => hcb, fun seen hmark => ?_, hs.acknowledged, hs.service, hs.afterResync⟩
    rcases hdev with rfl | rfl <;> cases hmark
  | loadSeen h =>
    have hcb := hidle h nofun
    refine ⟨fun _ => hcb, fun seen hmark => ?_, hs.acknowledged, hs.service, hs.afterResync⟩
    cases hmark
    rfl
  | storeMark seen h =>
    have hcb := hidle h nofun
    refine ⟨fun _ => hcb, fun seen hmark => (nomatch hmark), fun _ _ => hout hcb,
      fun pc hcon => ?_, hs.afterResync⟩
    exact (hs.service pc hcon).env id (fun _ => id) (fun _ => rfl) (fun hne => absurd rfl hne)
      fun _ => ⟨hout hcb, hs.deviceMark seen h⟩
  | storePending h =>
    have hcb := hidle h nofun
    refine ⟨fun _ => hcb, fun seen hmark => (nomatch hmark), fun _ _ => hout hcb,
      fun pc hcon => ?_, hs.afterResync⟩
    exact (hs.service pc hcon).env (fun _ => rfl) (fun _ => id) (fun _ => rfl)
      (fun hne => absurd rfl hne) fun hne => absurd rfl hne
  | bump h =>
    refine ⟨fun hne => absurd rfl hne, fun seen hmark => (nomatch hmark), hs.acknowledged,
      fun pc hcon => ?_, hs.afterResync⟩
    exact (hs.service pc hcon).env id (fun _ => id) (fun _ => rfl) (fun hne => absurd rfl hne)
      fun hne => absurd rfl hne

theorem RingsEmpty.discard {s : CaptureRun} (h : s.RingsEmpty) (ch count : ℕ) :
    (s.discard ch count).RingsEmpty := by
  intro j hj
  show ((s.bus.discardRing ch count).rings j).items = []
  rw [CaptureBus.rings_discardRing]
  split
  · rename_i heq
    rw [← heq, h j hj, List.drop_nil]
  · exact h j hj

theorem GateInv.discard {s : CaptureRun} (hs : GateInv s) (ch count : ℕ)
    (hcon : ∀ pc, s.con ≠ .service pc) : GateInv (s.discard ch count) where
  quiesced := hs.quiesced
  deviceMark := hs.deviceMark
  acknowledged := hs.acknowledged
  service pc h := absurd h (hcon pc)
  afterResync h := ⟨(hs.afterResync h).1.discard ch count, (hs.afterResync h).2⟩

variable {hop : ℕ} {a : CaptureAct}

theorem GateInv.drain {s : CaptureRun} (hs : GateInv s) {pc : DrainPc}
    (hcon : s.con = .drain pc) : GateInv (s.drainStep hop pc) := by
  obtain ⟨u, hu, heq⟩ := drainStep_eq hop s pc
  have hinv : GateInv u := by
    rcases hu with rfl | ⟨ch, count, rfl⟩
    · exact hs
    · refine hs.discard ch count fun pc' h => ?_
      rw [hcon] at h
      cases h
  have hout := drainStep_con hop s pc
  rw [heq]
  exact ⟨hinv.quiesced, hinv.deviceMark, hinv.acknowledged, fun pc' h => absurd h (hout pc'),
    hinv.afterResync⟩

/-- A step of the resync: what it needs from the condition is that the consumer does not take the
bus for idle while a block is past the gate. -/
theorem GateInv.serviceStep {s : CaptureRun} (hs : GateInv s) {pc : ServicePc}
    (hcon : s.con = .service pc) (now : ℕ)
    (hok : s.con.atActiveUnacknowledged → s.bus.active = false → ¬ s.cb.Inside) :
    GateInv (s.serviceStep now pc) := by
  have hpc := hs.service pc hcon
  -- a step that leaves the bus alone
  have hmove : ∀ pc', ServiceInv s.bus s.cb.Inside pc' →
      GateInv { s with con := .service pc' } := fun pc' h =>
    ⟨hs.quiesced, hs.deviceMark, hs.acknowledged, fun pc'' heq => by cases heq; exact h,
      hs.afterResync⟩
  have hleave : GateInv { s with con := .drain .gateCheck } :=
    ⟨hs.quiesced, hs.deviceMark, hs.acknowledged, fun pc'' heq => (nomatch heq), hs.afterResync⟩
  cases pc with
  | scanning ch mask =>
    rw [CaptureRun.serviceStep]
    split
    · exact hmove _ trivial
    · split
      · exact ⟨hs.quiesced, hs.deviceMark, hs.acknowledged,
          fun pc'' heq => by cases heq; trivial, hs.afterResync⟩
      · exact hmove _ trivial
  | raising pc =>
    cases pc with
    | loadSeen => exact hmove (.raising (.storeMark s.bus.gateSeen)) fun hne => absurd rfl hne
    | storeMark seen =>
      exact ⟨hs.quiesced, hs.deviceMark, fun _ hne => (hpc hne).2,
        fun pc'' heq => by cases heq; exact hpc, hs.afterResync⟩
    | storePending =>
      exact ⟨hs.quiesced, hs.deviceMark, fun _ hne => (hpc hne).2,
        fun pc'' heq => by cases heq; trivial, hs.afterResync⟩
  | gateCheck =>
    rw [CaptureRun.serviceStep]
    split
    · rename_i hpending
      exact hmove .readClock hpending
    · exact ⟨hs.quiesced, hs.deviceMark, hs.acknowledged, fun pc'' heq => (nomatch heq),
        hs.afterResync⟩
  | readClock =>
    rw [CaptureRun.serviceStep, CaptureBus.noteWaiting]
    split
    · exact hmove (.loadSeen _) hpc
    · exact ⟨hs.quiesced, hs.deviceMark, hs.acknowledged,
        fun pc'' heq => by cases heq; exact hpc, hs.afterResync⟩
  | loadSeen timedOut =>
    refine hmove (.loadMark timedOut s.bus.gateSeen) ⟨hpc, fun hi => ?_⟩
    by_contra hne
    exact hs.acknowledged hpc hne hi
  | loadMark timedOut seen =>
    refine hmove (.loadActive timedOut _) ⟨hpc.1, fun hack hi => ?_⟩
    exact of_decide_eq_true hack (hpc.2 hi)
  | loadActive timedOut acknowledged =>
    rw [CaptureRun.serviceStep]
    split
    · exact hleave
    · rename_i hgoes
      split
      · exact ⟨hs.quiesced, hs.deviceMark, hs.acknowledged,
          fun pc'' heq => by cases heq; exact ⟨hpc.1, nofun⟩, hs.afterResync⟩
      · -- acknowledged, or the bus is inactive
        rename_i hcounted
        refine hmove (.sampling false 0 0) ⟨hpc.1, fun _ => ⟨?_, fun j hj => (nomatch hj)⟩⟩
        cases acknowledged with
        | true => exact hpc.2 rfl
        | false =>
          refine hok (by rw [hcon]; rfl) ?_
          cases hactive : s.bus.active with
          | false => rfl
          | true =>
            rw [hactive] at hgoes hcounted
            cases timedOut <;> simp at hgoes hcounted
  | sampling timedOut largest ch =>
    rw [CaptureRun.serviceStep]
    split
    · refine hmove (.discarding timedOut largest ch _) ⟨hpc.1, fun hout => ?_⟩
      exact ⟨(hpc.2 hout).1, (hpc.2 hout).2, Nat.le_refl _⟩
    · rename_i hch
      refine hmove (.lowering timedOut largest) ⟨hpc.1, fun hout => ?_⟩
      exact ⟨(hpc.2 hout).1, fun j hj => (hpc.2 hout).2 j (by omega)⟩
  | discarding timedOut largest ch count =>
    refine ⟨hs.quiesced, hs.deviceMark, hs.acknowledged, fun pc'' heq => ?_, fun h =>
      ⟨(hs.afterResync h).1.discard ch count, (hs.afterResync h).2⟩⟩
    cases heq
    refine ⟨hpc.1, fun hout => ?_⟩
    obtain ⟨hi, hdrained, hcount⟩ := hpc.2 hout
    refine ⟨hi, fun j hj => ?_⟩
    show ((s.bus.discardRing ch count).rings j).items = []
    rw [CaptureBus.rings_discardRing]
    split
    · exact List.drop_eq_nil_of_le hcount
    · exact hdrained j (by omega)
  | lowering timedOut largest =>
    refine ⟨hs.quiesced, hs.deviceMark, nofun, fun pc'' heq => (nomatch heq), fun h => ?_⟩
    have hclean : (!timedOut) = true := h
    have hout : timedOut = false := by simpa using hclean
    obtain ⟨hi, hdrained⟩ := hpc.2 hout
    exact ⟨hdrained, hi⟩

theorem GateInv.store {s : CaptureRun} (hs : GateInv s) {b : CaptureBus ℕ}
    (hpending : b.resyncPending = s.bus.resyncPending) (hseen : b.gateSeen = s.bus.gateSeen)
    (hmark : b.gateSeenAtRaise = s.bus.gateSeenAtRaise) (hrings : b.rings = s.bus.rings) :
    GateInv { s with bus := b } where
  quiesced := hs.quiesced
  deviceMark seen h := (hs.deviceMark seen h).trans hseen.symm
  acknowledged hp hne := hs.acknowledged (hpending ▸ hp) (hseen ▸ hmark ▸ hne)
  service pc hcon := (hs.service pc hcon).env (fun hp => hpending.trans hp) (fun _ => id)
    (fun _ => hrings) (fun hne => absurd hseen hne) fun hne => absurd hmark hne
  afterResync h := by
    refine ⟨fun ch hch => ?_, (hs.afterResync h).2⟩
    show (b.rings ch).items = []
    rw [hrings]
    exact (hs.afterResync h).1 ch hch

theorem GateInv.step (hs : GateInv s)
    (h : (captureRuns hop).step s a = some t) (hok : GateKept s a t) : GateInv t := by
  cases a with
  | enter present numChannels numSamples =>
    simp only [captureRuns] at h
    split at h
    · rename_i hidle
      cases h
      have hdev := DevicePc.isIdle_iff.mp (Bool.and_eq_true_iff.mp hidle).2
      refine ⟨fun hne => absurd hdev hne, hs.deviceMark, fun _ _ => id, fun pc hcon => ?_,
        fun h => ⟨(hs.afterResync h).1, id⟩⟩
      exact (hs.service pc hcon).env id (fun _ => False.elim) (fun _ => rfl)
        (fun hne => absurd rfl hne) fun hne => absurd rfl hne
    · cases h
  | callback => exact hs.callback (callbackStep_cases h) fun hcount => hok.2 ⟨hcount, rfl⟩
  | prepare sampleRate numChannels =>
    simp only [captureRuns] at h
    split at h
    · rename_i hidle
      cases h
      have hcb := CallbackPc.isIdle_iff.mp (Bool.and_eq_true_iff.mp hidle).1
      have hstored := hs.store (b := s.bus.relabel sampleRate numChannels) rfl rfl rfl rfl
      exact ⟨fun _ => hcb, fun seen hmark => (nomatch hmark), hstored.acknowledged,
        hstored.service, hstored.afterResync⟩
    · cases h
  | device => exact hs.device (deviceStep_cases h)
  | setActive active =>
    cases h
    exact hs.store rfl rfl rfl rfl
  | setRole channel role =>
    cases h
    exact hs.store rfl rfl rfl rfl
  | setTransferFunction channel tf =>
    cases h
    exact hs.store rfl rfl rfl rfl
  | tick =>
    simp only [captureRuns] at h
    split at h
    · cases h
      exact ⟨hs.quiesced, hs.deviceMark, hs.acknowledged, fun pc heq => by cases heq; trivial,
        hs.afterResync⟩
    · cases h
  | consumer now =>
    simp only [captureRuns] at h
    split at h
    · cases h
    · rename_i pc hcon
      cases h
      exact hs.serviceStep hcon now fun hread => hok.1 ⟨hread, rfl⟩
    · rename_i pc hcon
      cases h
      exact hs.drain hcon

/-- At the lowering, and at the next acceptance, the invariant says what is wanted. -/
theorem GateInv.resyncIsClean (hs : GateInv s)
    (h : (captureRuns hop).step s a = some t) : ResyncIsClean s a t := by
  constructor
  · rintro ⟨hlowering, hconsumer⟩
    cases a with
    | consumer now =>
      obtain ⟨largest, hcon⟩ : ∃ largest, s.con = .service (.lowering false largest) := by
        rw [ConsumerPc.atLowering.eq_def] at hlowering
        split at hlowering
        · exact ⟨_, ‹_›⟩
        · cases hlowering
      simp only [captureRuns, hcon] at h
      cases h
      obtain ⟨hi, hdrained⟩ := (hs.service _ hcon).2 rfl
      exact ⟨hdrained, hi⟩
    | enter | callback | prepare | device | setActive | setRole | setTransferFunction | tick =>
      cases hconsumer
  · rintro - hafter
    exact (hs.afterResync hafter).1

/-- **Headline.** In every run in which no block is past the gate when the consumer takes the bus
for idle, and no lowered gate is counted while the next is raised: whenever a resync ends without
having timed out, the gate comes down on empty rings with no block between its check and its last
write, and the next block accepted starts every ring. -/
theorem resync_clean (hop : ℕ) {s : CaptureRun} (hinit : (captureRuns hop).init s)
    (acts : List CaptureAct) (hok : (captureRuns hop).AlongSteps GateKept s acts) :
    (captureRuns hop).AlongSteps ResyncIsClean s acts := by
  obtain ⟨b, -, -, rfl⟩ := hinit
  refine Machine.AlongSteps.of_invariant GateInv ?_ gateInv_start hok
  intro s a t hs hstep hkept
  exact ⟨hs.step hstep hkept, hs.resyncIsClean hstep⟩

/-! ### A third channel while the device runs -/

/-- A block is taken, a third channel gets a role, the consumer raises the gate, a block sees it, and
the consumer drains; then another block comes. -/
def roleAdded : List CaptureAct :=
  .enter (some [true, true]) 2 1 :: List.replicate 8 .callback ++
  [.setRole 2 .measurement, .tick] ++ List.replicate 74 (.consumer 0) ++
  .enter (some [true, true]) 2 1 :: List.replicate 4 .callback ++
  .tick :: List.replicate 200 (.consumer 1) ++
  .enter (some [true, true]) 2 1 :: List.replicate 8 .callback

theorem resync_clean_roleAdded :
    (captureRuns 1).AlongSteps ResyncIsClean (.start (twoChannels 8)) roleAdded :=
  resync_clean 1 (captureRuns_init_twoChannels 1 8) roleAdded (by decide +kernel)

/-- A block has passed the gate and written one ring; then a third channel gets a role and the
device is being stopped. The consumer takes the bus for idle and drains, and lowers the gate with
the block still in flight. -/
def stoppedInFlight : List CaptureAct :=
  .enter (some [true, true]) 2 1 :: List.replicate 6 .callback ++
  [.setRole 2 .measurement, .setActive false, .tick] ++ List.replicate 202 (.consumer 0) ++
  [.callback, .consumer 0]

theorem idle_drain_splits_block :
    ¬ (captureRuns 1).AlongSteps ResyncIsClean (.start (twoChannels 8)) stoppedInFlight := by
  decide +kernel

end CaptureRun

end RtaTool
