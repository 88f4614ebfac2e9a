import RtaTool.Platform.OutputEngineThreads

/-!
# The quiescent swap

`setSource` replaces the slot the audio thread renders from. What makes that safe is meant to be
the quiescence check: `publishedIdle_` says the last block ended with the master ramp Idle, and
`armed_` says no new block will start it again.

The two words describe different moments. `publishedIdle_` is only written at the end of a block,
so it still reads `true` all through the first block after an arm; and `armed_` can be lowered in
the middle of that same block. A check made then passes, and the slot is replaced under a render
that is using it.

That window is the only one. Under `ChecksOutsideFirstBlock`, which excludes it and nothing else,
no interleaving of the three threads replaces the slot under a render.

## Main definitions

* `ReplacesOnlyUnused` -- the safety property, on steps
* `ChecksOutsideFirstBlock` -- the permission, on steps
* `SwapInv` -- the invariant that carries the one to the other

## Main results

* `setSource_replaces_only_unused` -- safety along every permitted run
* `check_in_first_block_replaces` -- the excluded check goes on to replace a slot in use
-/

namespace RtaTool

namespace OutputEngine

variable {Src Spec : Type}

/-- When the slot is replaced, no block that decided to use the source is in flight. -/
def ReplacesOnlyUnused (s : Threads Src) (act : ThreadAct Spec) (_ : Threads Src) : Prop :=
  act = .message .storeSlot → ¬ s.cb.Using

/-- The hazard: a block that uses the source is in flight, the gate it started from is still
published as idle, and the engine has been disarmed since. -/
def FirstBlockDisarmed (s : Threads Src) : Prop :=
  s.cb.Using ∧ s.engine.publishedIdle = true ∧ s.engine.armed = false

/-- `setSource` does not begin its quiescence check inside the hazard. -/
def ChecksOutsideFirstBlock (s : Threads Src) (act : ThreadAct Spec) (_ : Threads Src) : Prop :=
  act = .message .loadPublishedIdle → ¬ FirstBlockDisarmed s

instance (s : Threads Src) : Decidable (FirstBlockDisarmed s) :=
  inferInstanceAs (Decidable (_ ∧ _ ∧ _))

instance [DecidableEq Spec] (s : Threads Src) (act : ThreadAct Spec) (t : Threads Src) :
    Decidable (ReplacesOnlyUnused s act t) :=
  inferInstanceAs (Decidable (_ → _))

instance [DecidableEq Spec] (s : Threads Src) (act : ThreadAct Spec) (t : Threads Src) :
    Decidable (ChecksOutsideFirstBlock s act t) :=
  inferInstanceAs (Decidable (_ → _))

/-! ### The invariant -/

/-- The device thread is inside `prepare` and has not reset the master ramp yet. -/
def DevPc.BeforeRamps : DevPc → Prop
  | .bumped _ _ | .disarmed _ _ | .rateStored _ _ | .channelsStored _ => True
  | .idle | .rampsPrepared => False

/-- Nothing uses the source, and the next block will not on account of the master ramp: it is
Idle, or the device thread is about to make it Idle before any block can begin. -/
def AtRest (s : Threads Src) : Prop :=
  ¬ s.cb.Using ∧ (s.engine.master.state = .idle ∨ s.dev.BeforeRamps)

/-- The invariant of the swap. The last two clauses are the two halves of the quiescence check,
each as what it still means by the time the next access is made. -/
structure SwapInv (s : Threads Src) : Prop where
  published : ¬ s.cb.Using → s.engine.publishedIdle = true → s.engine.master.state = .idle
  prepared : s.dev = .rampsPrepared → s.engine.master.state = .idle
  quiesced : s.dev ≠ .idle → s.cb = .idle
  clearing : s.cb = .clearing → s.engine.master.state = .idle
  checked : ∀ source, s.msg = .idleLoaded source → s.engine.armed = true ∨ AtRest s
  cleared : ∀ source, s.msg = .quiescent source → s.engine.armed = false ∧ AtRest s

theorem swapInv_init : SwapInv (⟨make, .idle, .idle, .idle⟩ : Threads Src) where
  published _ _ := rfl
  prepared h := nomatch h
  quiesced h := absurd rfl h
  clearing h := nomatch h
  checked _ h := nomatch h
  cleared _ h := nomatch h

variable {s t : Threads Src}

variable {build : Spec → ℚ → Option Src}

/-- The message thread never touches the master ramp or the published flag, so only the two
accesses of the check itself have anything to prove. -/
theorem SwapInv.message {a : MsgAct Spec}
    (hs : SwapInv s) (h : MessageStep build s.engine s.msg a t.engine t.msg)
    (hdev : t.dev = s.dev) (hcb : t.cb = s.cb)
    (hok : a = .loadPublishedIdle → ¬ FirstBlockDisarmed s) : SwapInv t := by
  obtain ⟨e, msg, dev, cb⟩ := s
  obtain ⟨e', msg', dev', cb'⟩ := t
  obtain rfl : dev' = dev := hdev
  obtain rfl : cb' = cb := hcb
  obtain ⟨hpub, hprep, hqui, hclear, hchk, hclr⟩ := hs
  cases h with
  | idleTrue source hp =>
    refine ⟨hpub, hprep, hqui, hclear, fun _ _ => ?_, fun _ h => nomatch h⟩
    by_cases ha : e.armed = true
    · exact .inl ha
    · have hnot : ¬ cb'.Using := fun hu => hok rfl ⟨hu, hp, Bool.eq_false_of_not_eq_true ha⟩
      exact .inr ⟨hnot, .inl (hpub hnot hp)⟩
  | armedFalse source ha =>
    refine ⟨hpub, hprep, hqui, hclear, fun _ h => (nomatch h), fun _ _ => ⟨ha, ?_⟩⟩
    have ha' : e.armed ≠ true := fun h => Bool.false_ne_true (ha.symm.trans h)
    exact (hchk source rfl).resolve_left ha'
  | _ => exact ⟨hpub, hprep, hqui, hclear, fun _ h => (nomatch h), fun _ h => (nomatch h)⟩

theorem SwapInv.device {a : DevAct} (hs : SwapInv s)
    (h : DeviceStep s.engine s.cb.isIdle s.dev a t.engine t.dev)
    (hmsg : t.msg = s.msg) (hcb : t.cb = s.cb) : SwapInv t := by
  obtain ⟨e, msg, dev, cb⟩ := s
  obtain ⟨e', msg', dev', cb'⟩ := t
  obtain rfl : msg' = msg := hmsg
  obtain rfl : cb' = cb := hcb
  obtain ⟨hpub, hprep, hqui, hclear, hchk, hclr⟩ := hs
  -- inside `prepare` no block is in flight, so nothing uses the source
  have hrest : dev ≠ .idle → ¬ cb'.Using := fun hd => by
    rw [show cb' = .idle from hqui hd]
    exact id
  cases h with
  | bumpEpoch rate channels hidle =>
    have hcb : cb' = .idle := by
      cases cb' with
      | idle => rfl
      | rendering c r => cases hidle
      | clearing => cases hidle
    have hnot : ¬ cb'.Using := by
      rw [hcb]
      exact id
    exact ⟨hpub, fun h => (nomatch h), fun _ => hcb, hclear,
      fun source h => (hchk source h).imp id fun _ => ⟨hnot, .inr trivial⟩,
      fun source h => ⟨(hclr source h).1, hnot, .inr trivial⟩⟩
  | clearArmed rate channels =>
    have hnot := hrest (fun h => nomatch h)
    exact ⟨hpub, fun h => (nomatch h), fun _ => hqui (fun h => nomatch h), hclear,
      fun _ _ => .inr ⟨hnot, .inr trivial⟩, fun _ _ => ⟨rfl, hnot, .inr trivial⟩⟩
  | storeRate rate channels =>
    have hnot := hrest (fun h => nomatch h)
    exact ⟨hpub, fun h => (nomatch h), fun _ => hqui (fun h => nomatch h), hclear,
      fun source h => (hchk source h).imp id fun _ => ⟨hnot, .inr trivial⟩,
      fun source h => ⟨(hclr source h).1, hnot, .inr trivial⟩⟩
  | storeChannels rate channels =>
    have hnot := hrest (fun h => nomatch h)
    exact ⟨hpub, fun h => (nomatch h), fun _ => hqui (fun h => nomatch h), hclear,
      fun source h => (hchk source h).imp id fun _ => ⟨hnot, .inr trivial⟩,
      fun source h => ⟨(hclr source h).1, hnot, .inr trivial⟩⟩
  | prepareRamps rate =>
    have hnot := hrest (fun h => nomatch h)
    exact ⟨fun _ _ => rfl, fun _ => rfl, fun _ => hqui (fun h => nomatch h), fun _ => rfl,
      fun source h => (hchk source h).imp id fun _ => ⟨hnot, .inl rfl⟩,
      fun source h => ⟨(hclr source h).1, hnot, .inl rfl⟩⟩
  | publishIdle =>
    have hnot := hrest (fun h => nomatch h)
    have hidle := hprep rfl
    exact ⟨fun _ _ => hidle, fun h => (nomatch h), fun h => absurd rfl h, hclear,
      fun source h => (hchk source h).imp id fun _ => ⟨hnot, .inl hidle⟩,
      fun source h => ⟨(hclr source h).1, hnot, .inl hidle⟩⟩

/-- A block that is about to begin while the engine is at rest and disarmed takes the fast
clear. -/
theorem needsRender_of_atRest {e : OutputEngine Src} {msg : MsgPc Src} {cb : CbPc}
    (harmed : e.armed = false) (hrest : AtRest ⟨e, msg, .idle, cb⟩) : e.needsRender = false := by
  have hidle : e.master.state = .idle := hrest.2.resolve_right id
  simp [needsRender, wantsPlaying, harmed, hidle]

theorem SwapInv.callback [AudioSource Src] {a : CbAct} (hs : SwapInv s)
    (h : CallbackStep s.engine s.dev.isIdle s.cb a t.engine t.cb)
    (hmsg : t.msg = s.msg) (hdev : t.dev = s.dev) : SwapInv t := by
  obtain ⟨e, msg, dev, cb⟩ := s
  obtain ⟨e', msg', dev', cb'⟩ := t
  obtain rfl : msg' = msg := hmsg
  obtain rfl : dev' = dev := hdev
  obtain ⟨hpub, hprep, hqui, hclear, hchk, hclr⟩ := hs
  cases h with
  | decideRender channels samples hidle hn =>
    obtain rfl : dev' = .idle := by
      cases dev' <;> first | rfl | cases hidle
    refine ⟨fun h => absurd trivial h, fun h => (nomatch h), fun h => absurd rfl h,
      fun h => (nomatch h), fun source h => .inl ?_, fun source h => ?_⟩
    · show e.armed = true
      by_contra ha
      have hrest := (hchk source h).resolve_left ha
      have hclear := needsRender_of_atRest (Bool.eq_false_of_not_eq_true ha) hrest
      cases hn.symm.trans hclear
    · obtain ⟨ha, hrest⟩ := hclr source h
      cases hn.symm.trans (needsRender_of_atRest ha hrest)
  | decideClear channels samples hidle hn =>
    obtain rfl : dev' = .idle := by
      cases dev' <;> first | rfl | cases hidle
    have hmaster : e.master.state = .idle := by
      simp only [needsRender, Bool.or_eq_false_iff, bne_eq_false_iff_eq] at hn
      exact hn.2
    exact ⟨fun _ _ => hmaster, fun h => (nomatch h), fun h => absurd rfl h, fun _ => hmaster,
      fun source h => (hchk source h).imp id fun hr => ⟨id, hr.2⟩,
      fun source h => ⟨(hclr source h).1, id, (hclr source h).2.2⟩⟩
  | chunk channels remaining hr =>
    have hdevIdle : dev' = .idle := by
      by_contra hd
      cases hqui hd
    subst hdevIdle
    exact ⟨fun h => absurd trivial h, fun h => (nomatch h), fun h => absurd rfl h,
      fun h => (nomatch h), fun source h => (hchk source h).imp id fun hr => absurd trivial hr.1,
      fun source h => absurd trivial (hclr source h).2.1⟩
  | publishRender channels =>
    have hdevIdle : dev' = .idle := by
      by_contra hd
      cases hqui hd
    subst hdevIdle
    exact ⟨fun _ hp => by simpa [publishIdle] using hp, fun h => (nomatch h),
      fun h => absurd rfl h, fun h => (nomatch h), fun source h => (hchk source h).imp id fun hr => absurd trivial hr.1,
      fun source h => absurd trivial (hclr source h).2.1⟩
  | publishClear =>
    have hmaster : e.master.state = .idle := hclear rfl
    exact ⟨fun _ _ => hmaster, hprep, fun _ => rfl, fun h => (nomatch h),
      fun source h => (hchk source h).imp id fun hr => ⟨id, hr.2⟩,
      fun source h => ⟨(hclr source h).1, id, (hclr source h).2.2⟩⟩

theorem SwapInv.step [AudioSource Src]
    {act : ThreadAct Spec} (hs : SwapInv s) (h : (engineThreads build).step s act = some t)
    (hok : ChecksOutsideFirstBlock s act t) : SwapInv t := by
  rcases engineThreads_step_cases h with
    ⟨a, rfl, hstep, hdev, hcb⟩ | ⟨a, rfl, hstep, hmsg, hcb⟩ | ⟨a, rfl, hstep, hmsg, hdev⟩
  · exact hs.message hstep hdev hcb fun ha => hok (by rw [ha])
  · exact hs.device hstep hmsg hcb
  · exact hs.callback hstep hmsg hdev

/-- Under the invariant the store finds nothing using the slot: the check is complete. -/
theorem SwapInv.replacesOnlyUnused [AudioSource Src] {act : ThreadAct Spec} (hs : SwapInv s)
    (h : (engineThreads build).step s act = some t) : ReplacesOnlyUnused s act t := by
  rintro rfl
  obtain ⟨e, msg, dev, cb⟩ := s
  cases msg with
  | quiescent source => exact (hs.cleared source rfl).2.1
  | _ => cases h

/-! ### The runs -/

/-- **Headline.** In every interleaving of the three threads, of any length, in which no
`setSource` begins its check during the first block after an arm once the engine has been disarmed
again, no `setSource` replaces the slot under a render that uses it. -/
theorem setSource_replaces_only_unused [AudioSource Src] (build : Spec → ℚ → Option Src)
    {s : Threads Src} {acts : List (ThreadAct Spec)} (hinit : (engineThreads build).init s)
    (hok : (engineThreads build).AlongSteps ChecksOutsideFirstBlock s acts) :
    (engineThreads build).AlongSteps ReplacesOnlyUnused s acts := by
  have hinv : SwapInv s := by
    rw [show s = _ from hinit]
    exact swapInv_init
  refine Machine.AlongSteps.of_invariant SwapInv ?_ hinv hok
  intro s a t hs ht hok
  exact ⟨hs.step ht hok, hs.replacesOnlyUnused ht⟩

/-- A quiet life of the engine: a source is installed, armed, rendered and disarmed, and once the
ramp has come down another takes its place. -/
def swapAtRest : List (ThreadAct (Option Bool)) :=
  [.message .readRate, .message (.build (some true)), .message .loadPublishedIdle,
    .message .loadArmed, .message .storeSlot, .message .loadOutputEpoch,
    .message .storeSlotEpoch, .message .zeroCounter, .message .storeArmed,
    .callback (.decide 2 2), .callback .chunk, .callback .publish, .message .disarm,
    .callback (.decide 2 2), .callback .chunk, .callback .publish,
    .message .readRate, .message (.build (some false)), .message .loadPublishedIdle,
    .message .loadArmed, .message .storeSlot]

theorem setSource_replaces_only_unused_at_rest :
    ((engineThreads RatedSource.build).exec
        (⟨make, .idle, .idle, .idle⟩ : Threads (RatedSource Bool)) swapAtRest).isSome ∧
      (engineThreads RatedSource.build).AlongSteps ReplacesOnlyUnused
        (⟨make, .idle, .idle, .idle⟩ : Threads (RatedSource Bool)) swapAtRest :=
  ⟨by decide +kernel,
    setSource_replaces_only_unused RatedSource.build rfl (by decide +kernel)⟩

/-- The schedule the quiescence check misses: armed, a first block decides to use the source,
disarmed in the middle of it, and a second `setSource` finds both words as it wants them. -/
def swapInFirstBlock : List (ThreadAct (Option Bool)) :=
  [.message .readRate, .message (.build (some true)), .message .loadPublishedIdle,
    .message .loadArmed, .message .storeSlot, .message .loadOutputEpoch,
    .message .storeSlotEpoch, .message .zeroCounter, .message .storeArmed,
    .callback (.decide 2 64), .message .disarm,
    .message .readRate, .message (.build (some false)), .message .loadPublishedIdle,
    .message .loadArmed, .message .storeSlot, .callback .chunk]

theorem setSource_replaces_slot_in_use :
    ¬ ∀ acts : List (ThreadAct (Option Bool)),
      (engineThreads RatedSource.build).AlongSteps ReplacesOnlyUnused
        (⟨make, .idle, .idle, .idle⟩ : Threads (RatedSource Bool)) acts := by
  intro h
  exact absurd (h swapInFirstBlock) (by decide)

/-- The permission excludes nothing else: a check begun inside the hazard passes, and two accesses
later the same call replaces a slot in use. -/
theorem check_in_first_block_replaces [AudioSource Src] (build : Spec → ℚ → Option Src)
    {s : Threads Src} {source : Option Src} (hmsg : s.msg = .built source)
    (hbad : FirstBlockDisarmed s) :
    ¬ (engineThreads build).AlongSteps ReplacesOnlyUnused s
      [.message .loadPublishedIdle, .message .loadArmed, .message .storeSlot] := by
  obtain ⟨e, msg, dev, cb⟩ := s
  obtain ⟨huse, hpub, harm⟩ := hbad
  obtain rfl : msg = .built source := hmsg
  intro h
  have hidle : (engineThreads build).step ⟨e, .built source, dev, cb⟩
      (.message .loadPublishedIdle) = some ⟨e, .idleLoaded source, dev, cb⟩ := by
    simp only [engineThreads, messageStep, show e.publishedIdle = true from hpub, if_true,
      Option.map_some]
  have hquiet : (engineThreads build).step ⟨e, .idleLoaded source, dev, cb⟩
      (.message .loadArmed) = some ⟨e, .quiescent source, dev, cb⟩ := by
    simp only [engineThreads, messageStep, show e.armed = false from harm, Bool.false_eq_true,
      if_false, Option.map_some]
  have hstore : (engineThreads build).step ⟨e, .quiescent source, dev, cb⟩
      (.message .storeSlot) = some ⟨{ e with slot := source }, .stored, dev, cb⟩ := rfl
  exact ((h.tail hidle).tail hquiet).head hstore rfl huse

end OutputEngine

end RtaTool
