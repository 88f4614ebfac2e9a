import RtaTool.Platform.OutputEngineThreads

/-!
# The epoch stamp

A source is built for a sample rate and then installed; a device restart changes the rate. The
engine tells a stale source by an epoch: `prepare` bumps `outputEpoch_`, `setSource` stamps the
slot with it, and `render` plays a slot only while the two agree.

The stamp is taken when the source is *installed*, the rate was read before it was *built*. A
restart that lands in between is stamped over: the old-rate source carries the new epoch and plays.
So does one that has bumped the epoch and not yet stored its rate when the stamp is taken.

What makes the property hold is a condition on the stamp alone, `StampsCurrentRate`: when
`setSource` loads the epoch, the source in the slot is for the engine's rate, and no restart past
its bump is about to change that rate. Nothing is asked of renders, arms, or restarts elsewhere.

## Main definitions

* `RendersCurrentRate` -- the property, on steps
* `StampsCurrentRate` -- the permission, on steps
* `StampInv` -- the invariant

## Main results

* `render_rate_matches` -- the property along every permitted run
* `stale_stamp_renders` -- a stamp on a stale source goes on to be rendered
-/

namespace RtaTool

namespace OutputEngine

variable {Kind : Type}

/-- The source in the slot, if there is one, was built for the engine's current rate. -/
def SlotCurrent (e : OutputEngine (RatedSource Kind)) : Prop :=
  ∀ src, e.slot = some src → src.builtFor = e.sampleRate

/-- A `prepare` has bumped the epoch and is about to store a different rate. -/
def DevPc.ChangesRate (rate : ℚ) : DevPc → Prop
  | .bumped r _ | .disarmed r _ => r ≠ rate
  | _ => False

/-- A chunk of the slot's source is processed only at the rate it was built for. -/
def RendersCurrentRate (s : Threads (RatedSource Kind)) (act : ThreadAct (Option Kind))
    (_ : Threads (RatedSource Kind)) : Prop :=
  act = .callback .chunk → SlotCurrent s.engine

/-- The epoch a source is stamped with is one it was built for. -/
def StampsCurrentRate (s : Threads (RatedSource Kind)) (act : ThreadAct (Option Kind))
    (_ : Threads (RatedSource Kind)) : Prop :=
  act = .message .loadOutputEpoch →
    SlotCurrent s.engine ∧ ¬ s.dev.ChangesRate s.engine.sampleRate

instance (e : OutputEngine (RatedSource Kind)) : Decidable (SlotCurrent e) :=
  match h : e.slot with
  | none => isTrue fun _ hs => nomatch h.symm.trans hs
  | some src => decidable_of_iff (src.builtFor = e.sampleRate)
      ⟨fun heq _ hs => Option.some.inj (h.symm.trans hs) ▸ heq, fun hall => hall src h⟩

instance (rate : ℚ) : DecidablePred (DevPc.ChangesRate rate)
  | .bumped r _ | .disarmed r _ => inferInstanceAs (Decidable (r ≠ rate))
  | .idle | .rateStored _ _ | .channelsStored _ | .rampsPrepared => isFalse id

instance [DecidableEq Kind] (s : Threads (RatedSource Kind)) (act : ThreadAct (Option Kind))
    (t : Threads (RatedSource Kind)) : Decidable (RendersCurrentRate s act t) :=
  inferInstanceAs (Decidable (_ → _))

instance [DecidableEq Kind] (s : Threads (RatedSource Kind)) (act : ThreadAct (Option Kind))
    (t : Threads (RatedSource Kind)) : Decidable (StampsCurrentRate s act t) :=
  inferInstanceAs (Decidable (_ → _ ∧ ¬ _))

/-! ### The invariant -/

/-- What the message thread holds between reading the rate and replacing the slot is for
`rate`. -/
def MsgPc.HeldFor (rate : ℚ) : MsgPc (RatedSource Kind) → Prop
  | .rateRead r => r = rate
  | .built source | .idleLoaded source | .quiescent source =>
    ∀ src, source = some src → src.builtFor = rate
  | _ => True

/-- `setSource` is past its quiescence check. -/
def MsgPc.PastCheck : MsgPc (RatedSource Kind) → Prop
  | .quiescent _ | .stored | .epochLoaded _ => True
  | _ => False

/-- `setSource` has replaced the slot and not stamped it yet. -/
def MsgPc.Stamping : MsgPc (RatedSource Kind) → Prop
  | .stored | .epochLoaded _ => True
  | _ => False

/-- The new rate is stored and the ramps are not reset yet. No block begins in here. -/
def DevPc.BetweenRateAndRamps : DevPc → Prop
  | .rateStored _ _ | .channelsStored _ => True
  | _ => False

/-- No block is using the source, and none can begin to before the message thread has come out of
`setSource`. This is the state a rate change leaves behind. -/
def Silenced (s : Threads (RatedSource Kind)) : Prop :=
  s.engine.wantsPlaying = false ∧ ¬ s.cb.Using ∧
    (s.engine.master.state = .idle ∨ s.dev.BetweenRateAndRamps)

/-- The invariant of the stamp. -/
structure StampInv (s : Threads (RatedSource Kind)) : Prop where
  /-- Stamps are taken from the epoch, and the epoch only grows. -/
  slotEpoch_le : s.engine.slotEpoch ≤ s.engine.outputEpoch
  epoch_le : ∀ epoch, s.msg = .epochLoaded epoch → epoch ≤ s.engine.outputEpoch
  quiesced : s.dev ≠ .idle → s.cb = .idle
  disarmed : s.msg.PastCheck → s.engine.armed = false
  held : s.msg.HeldFor s.engine.sampleRate ∨ Silenced s
  /-- A current stamp, taken or about to be stored, is on a current source. -/
  stamped : ¬ s.msg.Stamping → s.engine.slotEpoch = s.engine.outputEpoch →
    SlotCurrent s.engine ∧ ¬ s.dev.ChangesRate s.engine.sampleRate
  loaded : s.msg = .epochLoaded s.engine.outputEpoch →
    SlotCurrent s.engine ∧ ¬ s.dev.ChangesRate s.engine.sampleRate
  /-- What is sounding is current. -/
  live : ¬ s.dev.BetweenRateAndRamps → s.cb.Using ∨ s.engine.master.state ≠ .idle →
    SlotCurrent s.engine

theorem stampInv_init : StampInv (⟨make, .idle, .idle, .idle⟩ : Threads (RatedSource Kind)) where
  slotEpoch_le := le_rfl
  epoch_le _ h := nomatch h
  quiesced h := absurd rfl h
  disarmed h := nomatch h
  held := .inl trivial
  stamped _ _ := ⟨fun _ h => (nomatch h), id⟩
  loaded h := nomatch h
  live _ _ _ h := nomatch h

theorem RatedSource.build_builtFor (kind : Option Kind) (rate : ℚ) (src : RatedSource Kind)
    (h : RatedSource.build kind rate = some src) : src.builtFor = rate := by
  obtain ⟨k, -, rfl⟩ := Option.map_eq_some_iff.mp h
  rfl

variable {s t : Threads (RatedSource Kind)}

theorem StampInv.message {a : MsgAct (Option Kind)}
    (hs : StampInv s) (h : MessageStep RatedSource.build s.engine s.msg a t.engine t.msg)
    (hdev : t.dev = s.dev) (hcb : t.cb = s.cb)
    (hok : a = .loadOutputEpoch →
      SlotCurrent s.engine ∧ ¬ s.dev.ChangesRate s.engine.sampleRate) : StampInv t := by
  obtain ⟨e, msg, dev, cb⟩ := s
  obtain ⟨e', msg', dev', cb'⟩ := t
  obtain rfl : dev' = dev := hdev
  obtain rfl : cb' = cb := hcb
  obtain ⟨hle, hele, hqui, hdis, hheld, hstamp, hload, hlive⟩ := hs
  cases h with
  | readRate =>
    exact ⟨hle, fun _ h => (nomatch h), hqui, fun h => (nomatch h), .inl rfl, fun _ => hstamp id,
      fun h => (nomatch h), hlive⟩
  | build rate spec =>
    refine ⟨hle, fun _ h => (nomatch h), hqui, fun h => (nomatch h), hheld.imp ?_ id,
      fun _ => hstamp id, fun h => (nomatch h), hlive⟩
    intro hrate src hsrc
    rw [RatedSource.build_builtFor spec rate src hsrc]
    exact hrate
  | idleTrue source hp =>
    exact ⟨hle, fun _ h => (nomatch h), hqui, fun h => (nomatch h), hheld, fun _ => hstamp id,
      fun h => (nomatch h), hlive⟩
  | armedFalse source ha =>
    exact ⟨hle, fun _ h => (nomatch h), hqui, fun _ => ha, hheld, fun _ => hstamp id,
      fun h => (nomatch h), hlive⟩
  | storeSlot source =>
    refine ⟨hle, fun _ h => (nomatch h), hqui, fun _ => hdis trivial, .inl trivial,
      fun h => absurd trivial h, fun h => (nomatch h), fun hbetween hsound => ?_⟩
    rcases hheld with hrate | ⟨-, hnot, hmaster⟩
    · exact hrate
    · exact absurd (hmaster.resolve_right hbetween) (hsound.resolve_left hnot)
  | loadOutputEpoch =>
    exact ⟨hle, fun _ h => MsgPc.epochLoaded.inj h ▸ le_rfl, hqui, fun _ => hdis trivial,
      .inl trivial, fun h => absurd trivial h, fun _ => hok rfl, hlive⟩
  | storeSlotEpoch epoch =>
    exact ⟨hele epoch rfl, fun _ h => (nomatch h), hqui, fun h => (nomatch h), .inl trivial,
      fun _ heq => hload (congrArg MsgPc.epochLoaded heq), fun h => (nomatch h), hlive⟩
  | _ =>
    exact ⟨hle, fun _ h => (nomatch h), hqui, fun h => (nomatch h), .inl trivial,
      fun _ => hstamp id, fun h => (nomatch h), hlive⟩

theorem MsgPc.heldFor_of_stamping {rate : ℚ} {msg : MsgPc (RatedSource Kind)}
    (h : msg.Stamping) : msg.HeldFor rate := by
  cases msg with
  | stored => trivial
  | epochLoaded epoch => trivial
  | _ => exact h.elim

variable {e : OutputEngine (RatedSource Kind)}

theorem wantsPlaying_of_slotEpoch_ne
    (h : e.slotEpoch ≠ e.outputEpoch) : e.wantsPlaying = false := by
  simp [wantsPlaying, h]

theorem CbPc.eq_idle_of_isIdle {cb : CbPc} (h : cb.isIdle = true) : cb = .idle := by
  cases cb with
  | idle => rfl
  | rendering channels remaining => cases h
  | clearing => cases h

theorem DevPc.eq_idle_of_isIdle {dev : DevPc} (h : dev.isIdle = true) : dev = .idle := by
  cases dev with
  | idle => rfl
  | _ => cases h

theorem StampInv.device {a : DevAct} (hs : StampInv s)
    (h : DeviceStep s.engine s.cb.isIdle s.dev a t.engine t.dev)
    (hmsg : t.msg = s.msg) (hcb : t.cb = s.cb) : StampInv t := by
  obtain ⟨e, msg, dev, cb⟩ := s
  obtain ⟨e', msg', dev', cb'⟩ := t
  obtain rfl : msg' = msg := hmsg
  obtain rfl : cb' = cb := hcb
  obtain ⟨hle, hele, hqui, hdis, hheld, hstamp, hload, hlive⟩ := hs
  cases h with
  | bumpEpoch rate channels hidle =>
    have hcb : cb' = .idle := CbPc.eq_idle_of_isIdle hidle
    have hlt : e.slotEpoch < e.outputEpoch + 1 := Nat.lt_succ_of_le hle
    refine ⟨hlt.le, fun epoch h => Nat.le_succ_of_le (hele epoch h), fun _ => hcb, hdis,
      hheld.imp id fun hsil => ?_, fun _ heq => absurd heq hlt.ne, fun h => ?_,
      fun _ => hlive id⟩
    · exact ⟨wantsPlaying_of_slotEpoch_ne hlt.ne, hsil.2.1, .inl (hsil.2.2.resolve_right id)⟩
    · exact absurd (hele _ h) (Nat.not_succ_le_self _)
  | clearArmed rate channels =>
    exact ⟨hle, hele, fun _ => hqui (fun h => nomatch h), fun _ => rfl,
      hheld.imp id fun hsil => ⟨rfl, hsil.2.1, hsil.2.2⟩, hstamp, hload, fun _ => hlive id⟩
  | storeRate rate channels =>
    have hcb := hqui (fun h => nomatch h)
    by_cases hrate : rate = e.sampleRate
    · subst hrate
      exact ⟨hle, hele, fun _ => hcb, hdis,
        hheld.imp id fun hsil => ⟨hsil.1, hsil.2.1, .inr trivial⟩,
        fun hnot heq => ⟨(hstamp hnot heq).1, id⟩, fun h => ⟨(hload h).1, id⟩,
        fun h => absurd trivial h⟩
    · -- a current stamp would say that no restart is about to change the rate
      have hstale : ¬ msg'.Stamping → e.slotEpoch ≠ e.outputEpoch :=
        fun hnot heq => (hstamp hnot heq).2 hrate
      refine ⟨hle, hele, fun _ => hcb, hdis, ?_, fun hnot heq => absurd heq (hstale hnot),
        fun h => absurd hrate (hload h).2, fun h => absurd trivial h⟩
      by_cases hst : msg'.Stamping
      · exact .inl (MsgPc.heldFor_of_stamping hst)
      · refine .inr ⟨wantsPlaying_of_slotEpoch_ne (hstale hst), ?_, .inr trivial⟩
        rw [show cb' = .idle from hcb]
        exact id
  | storeChannels rate channels =>
    exact ⟨hle, hele, fun _ => hqui (fun h => nomatch h), hdis,
      hheld.imp id fun hsil => ⟨hsil.1, hsil.2.1, .inr trivial⟩,
      fun hnot heq => ⟨(hstamp hnot heq).1, id⟩, fun h => ⟨(hload h).1, id⟩,
      fun h => absurd trivial h⟩
  | prepareRamps rate =>
    have hcb := hqui (fun h => nomatch h)
    refine ⟨hle, hele, fun _ => hcb, hdis, hheld.imp id fun hsil => ⟨hsil.1, hsil.2.1, .inl rfl⟩,
      fun hnot heq => ⟨(hstamp hnot heq).1, id⟩, fun h => ⟨(hload h).1, id⟩,
      fun _ hsound => ?_⟩
    rw [show cb' = .idle from hcb] at hsound
    exact absurd rfl (hsound.resolve_left id)
  | publishIdle =>
    exact ⟨hle, hele, fun h => absurd rfl h, hdis,
      hheld.imp id fun hsil => ⟨hsil.1, hsil.2.1, .inl (hsil.2.2.resolve_right id)⟩,
      fun hnot heq => ⟨(hstamp hnot heq).1, id⟩, fun h => ⟨(hload h).1, id⟩, fun _ => hlive id⟩

/-- A block that begins in the silence after a rate change takes the fast clear. -/
theorem needsRender_of_silenced
    {msg : MsgPc (RatedSource Kind)} {cb : CbPc} (h : Silenced ⟨e, msg, .idle, cb⟩) :
    e.needsRender = false := by
  have hmaster : e.master.state = .idle := h.2.2.resolve_right id
  simp [needsRender, show e.wantsPlaying = false from h.1, hmaster]

theorem SlotCurrent.renderChunk (h : SlotCurrent e)
    (channels : ℤ) (chunk : ℕ) : SlotCurrent (e.renderChunk channels chunk) := by
  intro src hsrc
  obtain ⟨src', hsrc', rfl⟩ := Option.map_eq_some_iff.mp hsrc
  exact h src' hsrc'

theorem StampInv.callback {a : CbAct} (hs : StampInv s)
    (h : CallbackStep s.engine s.dev.isIdle s.cb a t.engine t.cb)
    (hmsg : t.msg = s.msg) (hdev : t.dev = s.dev) : StampInv t := by
  obtain ⟨e, msg, dev, cb⟩ := s
  obtain ⟨e', msg', dev', cb'⟩ := t
  obtain rfl : msg' = msg := hmsg
  obtain rfl : dev' = dev := hdev
  obtain ⟨hle, hele, hqui, hdis, hheld, hstamp, hload, hlive⟩ := hs
  -- a block in flight means the device thread is not inside `prepare`
  have hdevIdle : cb ≠ .idle → dev' = .idle := fun hcb => by
    by_contra hd
    exact hcb (hqui hd)
  cases h with
  | decideRender channels samples hidle hn =>
    obtain rfl : dev' = .idle := DevPc.eq_idle_of_isIdle hidle
    have hnot : ¬ Silenced ⟨e, msg', .idle, .idle⟩ := fun hsil => by
      cases hn.symm.trans (needsRender_of_silenced hsil)
    refine ⟨hle, hele, fun h => absurd rfl h, hdis, .inl (hheld.resolve_right hnot), hstamp,
      hload, fun _ _ => ?_⟩
    by_cases hmaster : e.master.state = .idle
    · -- the block plays because the engine is armed on a current stamp
      have hwants : e.wantsPlaying = true := by simpa [needsRender, hmaster] using hn
      obtain ⟨harmed, hepoch⟩ := Bool.and_eq_true_iff.mp hwants
      have hst : ¬ msg'.Stamping := fun hst => by
        have hpast : msg'.PastCheck := by
          cases msg' with
          | stored => trivial
          | epochLoaded epoch => trivial
          | _ => exact hst.elim
        exact Bool.false_ne_true ((hdis hpast).symm.trans harmed)
      exact (hstamp hst (beq_iff_eq.mp hepoch)).1
    · -- it plays the tail of what was sounding
      exact hlive id (.inr hmaster)
  | decideClear channels samples hidle hn =>
    obtain rfl : dev' = .idle := DevPc.eq_idle_of_isIdle hidle
    exact ⟨hle, hele, fun h => absurd rfl h, hdis,
      hheld.imp id fun hsil => ⟨hsil.1, id, hsil.2.2⟩, hstamp, hload,
      fun _ hsound => hlive id (.inr (hsound.resolve_left id))⟩
  | chunk channels remaining hr =>
    obtain rfl : dev' = .idle := hdevIdle (fun h => nomatch h)
    exact ⟨hle, hele, fun h => absurd rfl h, hdis,
      .inl (hheld.resolve_right fun hsil => hsil.2.1 trivial),
      fun hnot heq => ⟨(hstamp hnot heq).1.renderChunk _ _, id⟩,
      fun h => ⟨(hload h).1.renderChunk _ _, id⟩,
      fun _ _ => SlotCurrent.renderChunk (hlive id (.inl trivial)) _ _⟩
  | publishRender channels =>
    obtain rfl : dev' = .idle := hdevIdle (fun h => nomatch h)
    exact ⟨hle, hele, fun h => absurd rfl h, hdis,
      .inl (hheld.resolve_right fun hsil => hsil.2.1 trivial), hstamp, hload,
      fun _ _ => hlive id (.inl trivial)⟩
  | publishClear =>
    obtain rfl : dev' = .idle := hdevIdle (fun h => nomatch h)
    exact ⟨hle, hele, fun h => absurd rfl h, hdis,
      hheld.imp id fun hsil => ⟨hsil.1, id, hsil.2.2⟩, hstamp, hload,
      fun _ hsound => hlive id (.inr (hsound.resolve_left id))⟩

variable {act : ThreadAct (Option Kind)}

theorem StampInv.step (hs : StampInv s) (h : (engineThreads RatedSource.build).step s act = some t)
    (hok : StampsCurrentRate s act t) : StampInv t := by
  rcases engineThreads_step_cases h with
    ⟨a, rfl, hstep, hdev, hcb⟩ | ⟨a, rfl, hstep, hmsg, hcb⟩ | ⟨a, rfl, hstep, hmsg, hdev⟩
  · exact hs.message hstep hdev hcb fun ha => hok (by rw [ha])
  · exact hs.device hstep hmsg hcb
  · exact hs.callback hstep hmsg hdev

theorem StampInv.rendersCurrentRate (hs : StampInv s)
    (h : (engineThreads RatedSource.build).step s act = some t) :
    RendersCurrentRate s act t := by
  rintro rfl
  obtain ⟨e, msg, dev, cb⟩ := s
  cases cb with
  | rendering channels remaining =>
    have hdev : dev = .idle := by
      by_contra hd
      cases hs.quiesced hd
    subst hdev
    exact hs.live id (.inl trivial)
  | _ => cases h

/-! ### The runs -/

/-- **Headline.** In every interleaving of `prepare`, of the message thread's reading, building,
installing and arming, and of renders, of any length, in which each stamp is taken on a source for
the engine's rate with no rate change past its epoch bump, no render processes a source at a rate
it was not built for. -/
theorem render_rate_matches {s : Threads (RatedSource Kind)} {acts : List (ThreadAct (Option Kind))}
    (hinit : (engineThreads RatedSource.build).init s)
    (hok : (engineThreads RatedSource.build).AlongSteps StampsCurrentRate s acts) :
    (engineThreads RatedSource.build).AlongSteps RendersCurrentRate s acts := by
  have hinv : StampInv s := by
    rw [show s = _ from hinit]
    exact stampInv_init
  refine Machine.AlongSteps.of_invariant StampInv ?_ hinv hok
  intro s a t hs ht hok
  exact ⟨hs.step ht hok, hs.rendersCurrentRate ht⟩

/-- A restart to another rate before the rate is read: the source is built, stamped and played at
the new rate. -/
def restartBeforeRead : List (ThreadAct (Option Unit)) :=
  prepareActs 44100 2 ++
    [.message .readRate, .message (.build (some ())), .message .loadPublishedIdle,
      .message .loadArmed, .message .storeSlot, .message .loadOutputEpoch,
      .message .storeSlotEpoch, .message .zeroCounter, .message .storeArmed,
      .callback (.decide 2 1), .callback .chunk]

theorem render_rate_matches_restartBeforeRead :
    ((engineThreads RatedSource.build).exec
        (⟨make, .idle, .idle, .idle⟩ : Threads (RatedSource Unit)) restartBeforeRead).isSome ∧
      (engineThreads RatedSource.build).AlongSteps RendersCurrentRate
        (⟨make, .idle, .idle, .idle⟩ : Threads (RatedSource Unit)) restartBeforeRead :=
  ⟨by decide +kernel, render_rate_matches rfl (by decide +kernel)⟩

/-- The same restart between the read and the stamp: the source is for 48000 Hz, its stamp is the
new epoch, and it plays at 44100 Hz. -/
def restartBeforeStamp : List (ThreadAct (Option Unit)) :=
  .message .readRate :: prepareActs 44100 2 ++
    [.message (.build (some ())), .message .loadPublishedIdle,
      .message .loadArmed, .message .storeSlot, .message .loadOutputEpoch,
      .message .storeSlotEpoch, .message .zeroCounter, .message .storeArmed,
      .callback (.decide 2 1), .callback .chunk]

theorem render_rate_mismatch :
    ¬ ∀ acts : List (ThreadAct (Option Unit)),
      (engineThreads RatedSource.build).AlongSteps RendersCurrentRate
        (⟨make, .idle, .idle, .idle⟩ : Threads (RatedSource Unit)) acts := by
  intro h
  exact absurd (h restartBeforeStamp) (by decide +kernel)

/-- The permission excludes nothing harmless: once a stale source has been put in the slot of a
quiet engine, finishing the call, arming and rendering one sample plays it at the wrong rate. -/
theorem stale_stamp_renders {src : RatedSource Kind}
    (hslot : e.slot = some src) (hstale : src.builtFor ≠ e.sampleRate) :
    ¬ (engineThreads RatedSource.build).AlongSteps RendersCurrentRate ⟨e, .stored, .idle, .idle⟩
      [.message .loadOutputEpoch, .message .storeSlotEpoch, .message .zeroCounter,
        .message .storeArmed, .callback (.decide 1 1), .callback .chunk] := by
  intro h
  let armed : OutputEngine (RatedSource Kind) :=
    { e with slotEpoch := e.outputEpoch, renderedSamples := 0, armed := true }
  have hneeds : armed.needsRender = true := by
    simp [needsRender, wantsPlaying, armed]
  have hdecide : (engineThreads (RatedSource.build : Option Kind → _ → _)).step
      ⟨armed, .idle, .idle, .idle⟩ (.callback (.decide 1 1)) =
      some ⟨armed.requestMaster, .idle, .idle, .rendering (clampChannels 1) 1⟩ := by
    simp only [engineThreads, callbackStep, DevPc.isIdle, hneeds, if_true, Option.map_some]
    rfl
  have hrest := (((h.tail rfl).tail rfl).tail rfl).tail rfl
  exact hstale ((hrest.tail hdecide).head rfl rfl src hslot)

end OutputEngine

end RtaTool
