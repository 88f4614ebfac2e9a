import RtaTool.Measure.CaptureThreads

/-!
# Calls of the capture bus that nothing interrupts

The machine of `RtaTool.Measure.CaptureThreads` cuts the member functions of the bus into single
accesses. A call whose accesses follow one another undisturbed is the sequential call of
`RtaTool.Platform.CaptureBus`.

## Main results

* `pushFromCallback_alone`, `prepare_alone`, `serviceResync_alone`
-/

namespace RtaTool

/-- The block as `pushFromCallback` is handed it. -/
def FrameBlock.toBlock (f : FrameBlock) : CallbackBlock ℕ :=
  ⟨f.present.map fun _ => f.data, f.numChannels, f.numSamples⟩

namespace CaptureRun

variable (hop : ℕ)

/-! ### The callback -/

/-- The roles a block finds. -/
def snapshotRoles (config : ChannelConfig) (numChannels : ℤ) : List ChannelRole :=
  (List.range (min numChannels.toNat kMaxChannels)).map config.roles

theorem getD_snapshotRoles (config : ChannelConfig) (numChannels : ℤ) (ch : ℕ) :
    (snapshotRoles config numChannels).getD ch .unused = config.snapshot numChannels ch := by
  rw [snapshotRoles, ChannelConfig.snapshot, List.getD_eq_getElem?_getD, List.getElem?_map]
  split
  · rename_i h
    rw [List.getElem?_range h]
    rfl
  · rename_i h
    rw [List.getElem?_eq_none (by rw [List.length_range]; omega)]
    rfl

variable {f : FrameBlock}

theorem snapshot_alone (k : ℕ) :
    ∀ (j : ℕ) (s : CaptureRun), j + k = min f.numChannels.toNat kMaxChannels →
      s.cb = .snapshotting f ((List.range j).map s.bus.config.roles) →
      (captureRuns hop).Repeats .callback s
        { s with
          cb := .writing f (snapshotRoles s.bus.config f.numChannels)
            (s.bus.writeLimit f.numChannels) 0 [] } := by
  induction k with
  | zero =>
    intro j s hj hcb
    refine .head ?_ (.refl _)
    show s.callbackStep = _
    rw [callbackStep.eq_def, hcb]
    dsimp only
    rw [if_neg (by rw [List.length_map, List.length_range]; omega), snapshotRoles, ← hj]
    rfl
  | succ k ih =>
    intro j s hj hcb
    have hstep : s.callbackStep = some
        { s with cb := .snapshotting f ((List.range (j + 1)).map s.bus.config.roles) } := by
      rw [callbackStep.eq_def, hcb]
      dsimp only
      rw [if_pos (by rw [List.length_map, List.length_range]; omega), List.range_succ,
        List.map_append, List.length_map, List.length_range]
      rfl
    exact .head hstep (ih (j + 1) _ (by omega) rfl)

theorem write_alone {roles : List ChannelRole} {limit : ℕ} (k : ℕ) :
    ∀ (ch : ℕ) (taken : List ℕ) (s : CaptureRun), ch + k = limit →
      s.cb = .writing f roles limit ch taken →
      ∃ taken', (captureRuns hop).Repeats .callback s
        { s with
          bus := (List.range' ch k).foldl (fun b c =>
            b.writeRing (CaptureBus.routedTo (roles.getD · .unused) f.data c) c) s.bus
          cb := .idle
          blocks := s.blocks ++ [⟨f.frames, taken'⟩] } := by
  induction k with
  | zero =>
    intro ch taken s hch hcb
    refine ⟨taken, .head ?_ (.refl _)⟩
    show s.callbackStep = _
    rw [callbackStep.eq_def, hcb]
    exact if_neg (by omega)
  | succ k ih =>
    intro ch taken s hch hcb
    have hstep : s.callbackStep = some
        { s with
          bus := s.bus.writeRing (CaptureBus.routedTo (roles.getD · .unused) f.data ch) ch
          cb := .writing f roles limit (ch + 1)
            (if s.bus.takes (CaptureBus.routedTo (roles.getD · .unused) f.data ch) ch
              then ch :: taken else taken) } := by
      rw [callbackStep.eq_def, hcb]
      exact if_pos (by omega)
    have hrest := ih (ch + 1)
      (if s.bus.takes (CaptureBus.routedTo (roles.getD · .unused) f.data ch) ch
        then ch :: taken else taken)
      { s with
        bus := s.bus.writeRing (CaptureBus.routedTo (roles.getD · .unused) f.data ch) ch
        cb := _ } (by omega) rfl
    obtain ⟨taken', hrest⟩ := hrest
    exact ⟨taken', .head hstep hrest⟩

variable {s : CaptureRun}

/-- A block that is past the gate. -/
theorem writes_alone (hcb : s.cb = .snapshotting f []) :
    ∃ t, (captureRuns hop).Repeats .callback s t ∧ t.cb = .idle ∧ t.con = s.con ∧
      t.bus = (List.range (s.bus.writeLimit f.numChannels)).foldl (fun b ch =>
        b.writeRing (CaptureBus.routedTo (s.bus.config.snapshot f.numChannels) f.data ch) ch)
        s.bus := by
  have hsnap := snapshot_alone hop (min f.numChannels.toNat kMaxChannels) 0 s
    (Nat.zero_add _) hcb
  obtain ⟨taken, hwrite⟩ := write_alone hop (s.bus.writeLimit f.numChannels) 0 []
    { s with
      cb := .writing f (snapshotRoles s.bus.config f.numChannels)
        (s.bus.writeLimit f.numChannels) 0 [] } (Nat.zero_add _) rfl
  refine ⟨_, hsnap.trans hwrite, rfl, rfl, ?_⟩
  simp only [List.range_eq_range', getD_snapshotRoles]

theorem entered_alone (hcb : s.cb = .entered f) :
    ∃ t, (captureRuns hop).Repeats .callback s t ∧ t.cb = .idle ∧ t.con = s.con ∧
      t.bus = s.bus.pushFromCallback f.toBlock := by
  have hentered : s.callbackStep =
      if !s.bus.active then some { s with cb := .idle }
      else if f.present = none ∨ f.numChannels ≤ 0 ∨ f.numSamples ≤ 0 then
        some { s with cb := .idle }
      else some { s with cb := .activeSeen f } := by
    rw [callbackStep.eq_def, hcb]
  rw [CaptureBus.pushFromCallback.eq_def]
  cases hactive : s.bus.active with
  | false =>
    rw [hactive] at hentered
    exact ⟨_, .head hentered (.refl _), rfl, rfl, rfl⟩
  | true =>
    rw [hactive] at hentered
    cases hpresent : f.present with
    | none =>
      rw [if_neg (by decide), if_pos (.inl hpresent)] at hentered
      refine ⟨_, .head hentered (.refl _), rfl, rfl, ?_⟩
      rw [FrameBlock.toBlock, hpresent]
      rfl
    | some pointers =>
      rw [FrameBlock.toBlock, hpresent, if_neg (by decide)]
      dsimp only [Option.map_some]
      by_cases hcounts : f.numChannels ≤ 0 ∨ f.numSamples ≤ 0
      · rw [if_neg (by decide), if_pos (.inr hcounts)] at hentered
        exact ⟨_, .head hentered (.refl _), rfl, rfl, (if_pos hcounts).symm⟩
      · rw [if_neg (by decide), if_neg (by simp [hpresent, hcounts])] at hentered
        rw [if_neg hcounts]
        cases hpending : s.bus.resyncPending with
        | true =>
          -- three accesses of a block that is refused at the gate
          have hsee : ({ s with cb := .activeSeen f } : CaptureRun).callbackStep =
              some { s with cb := .gateSeen f } := if_pos hpending
          have hcount : ({ s with cb := .gateSeen f } : CaptureRun).callbackStep =
              some { s with bus := s.bus.noteGateSeen, cb := .gateCounted f } := rfl
          have hrefuse : ({ s with bus := s.bus.noteGateSeen, cb := .gateCounted f } :
              CaptureRun).callbackStep = some
                { s with bus := s.bus.noteGateSeen.noteRefused f.numSamples, cb := .idle } := rfl
          exact ⟨_, .head hentered (.head hsee (.head hcount (.head hrefuse (.refl _)))), rfl, rfl,
            rfl⟩
        | false =>
          have hpass : ({ s with cb := .activeSeen f } : CaptureRun).callbackStep =
              some { s with cb := .snapshotting f [], afterResync := false } :=
            if_neg (by rw [hpending]; decide)
          obtain ⟨t, hwrites, hidle, hcon, hbus⟩ := writes_alone hop
            (s := { s with cb := .snapshotting f [], afterResync := false }) rfl
          exact ⟨t, .head hentered (.head hpass hwrites), hidle, hcon, hbus⟩

theorem Repeats.device_head {s t u : CaptureRun} (h : s.deviceStep = some t)
    (hrest : (captureRuns hop).Repeats .device t u) : (captureRuns hop).Repeats .device s u :=
  .head h hrest

/-- A `prepare` whose accesses nothing interrupts is one call. -/
theorem prepare_alone (hcb : s.cb = .idle) (hdev : s.dev = .idle)
    (sampleRate : ℚ) (numChannels : ℤ) :
    ∃ u, (captureRuns hop).step s (.prepare sampleRate numChannels) = some u ∧
      (captureRuns hop).Repeats .device u
        { s with bus := s.bus.prepare sampleRate numChannels } := by
  refine ⟨_, if_pos (by rw [hcb, hdev]; rfl), ?_⟩
  obtain ⟨b, hb⟩ : ∃ b, b = s.bus.relabel sampleRate numChannels := ⟨_, rfl⟩
  rw [CaptureBus.prepare, ← hb]
  have hidle : s = { s with dev := .idle } := by rw [← hdev]
  have hbump : ∀ b : CaptureBus ℕ, (captureRuns hop).Repeats .device
      ({ s with bus := b, dev := .bumping } : CaptureRun)
      { s with bus := { b with epoch := b.epoch + 1 } } := by
    intro b
    rw [hidle]
    exact Repeats.device_head hop rfl (.refl _)
  cases hattached : b.consumerAttached with
  | false =>
    refine Repeats.device_head hop (t := { s with bus := b, dev := .bumping }) ?_ (hbump b)
    simp only [deviceStep, hattached]
    rfl
  | true =>
    refine Repeats.device_head hop (t := { s with bus := b, dev := .raising .loadSeen }) ?_ ?_
    · simp only [deviceStep, hattached]
      rfl
    · exact Repeats.device_head hop rfl (Repeats.device_head hop rfl
        (Repeats.device_head hop rfl (hbump b.raiseGate)))

theorem prepare_alone_fresh :
    ∃ u, (captureRuns 4).step (start (.make 8)) (.prepare 48000 2) = some u := by
  obtain ⟨u, hstep, -⟩ := prepare_alone 4 (s := start (.make 8)) rfl rfl 48000 2
  exact ⟨u, hstep⟩

/-! ### The resync -/

theorem Repeats.service_head {s u : CaptureRun} {now : ℕ} {pc : ServicePc}
    (hcon : s.con = .service pc)
    (hrest : (captureRuns hop).Repeats (.consumer now) (s.serviceStep now pc) u) :
    (captureRuns hop).Repeats (.consumer now) s u := by
  refine .head ?_ hrest
  simp only [captureRuns, hcon]

theorem scan_alone (now : ℕ) (k : ℕ) :
    ∀ (ch : ℕ) (mask : UInt64) (s : CaptureRun), ch + k = kMaxChannels →
      s.con = .service (.scanning ch mask) →
      (captureRuns hop).Repeats (.consumer now) s
        { s with
          con := .service (.scanning kMaxChannels ((List.range' ch k).foldl s.bus.addWriter mask)) } := by
  induction k with
  | zero =>
    intro ch mask s hch hcon
    obtain rfl : ch = kMaxChannels := hch
    have hself : s = { s with con := .service (.scanning kMaxChannels mask) } := by rw [← hcon]
    rw [List.range'_zero, List.foldl_nil, ← hself]
    exact .refl s
  | succ k ih =>
    intro ch mask s hch hcon
    refine Repeats.service_head hop hcon ?_
    rw [serviceStep, if_pos (by omega), List.range'_succ, List.foldl_cons]
    exact ih (ch + 1) _ _ (by omega) rfl

theorem drain_alone (now : ℕ) (timedOut : Bool) (k : ℕ) :
    ∀ (ch largest : ℕ) (s : CaptureRun), ch + k = kMaxChannels →
      s.con = .service (.sampling timedOut largest ch) →
      ∃ consumed, (captureRuns hop).Repeats (.consumer now) s
        { s with
          bus := ((List.range' ch k).foldl CaptureBus.drainRing (largest, s.bus)).2
          con := .service (.lowering timedOut
            ((List.range' ch k).foldl CaptureBus.drainRing (largest, s.bus)).1)
          consumed := consumed } := by
  induction k with
  | zero =>
    intro ch largest s hch hcon
    refine ⟨s.consumed, Repeats.service_head hop hcon ?_⟩
    rw [serviceStep, if_neg (by omega)]
    exact .refl _
  | succ k ih =>
    intro ch largest s hch hcon
    obtain ⟨t, ht⟩ : ∃ t, t = ({ s with con := .service (.discarding timedOut largest ch
      (s.bus.availableToRead ch)) } : CaptureRun).serviceStep now
        (.discarding timedOut largest ch (s.bus.availableToRead ch)) := ⟨_, rfl⟩
    obtain ⟨consumed, hrest⟩ := ih (ch + 1) _ t (by omega) (by rw [ht]; rfl)
    refine ⟨consumed, Repeats.service_head hop hcon ?_⟩
    rw [serviceStep, if_pos (by omega)]
    refine Repeats.service_head hop rfl ?_
    rw [← ht, List.range'_succ, List.foldl_cons]
    rw [ht] at hrest ⊢
    exact hrest

theorem checkWriters_alone (now : ℕ) (hcon : s.con = .service (.scanning 0 0)) :
    (captureRuns hop).Repeats (.consumer now) s
      { s with bus := s.bus.checkWriters, con := .service .gateCheck } := by
  have hscan : (captureRuns hop).Repeats (.consumer now) s
      { s with con := .service (.scanning kMaxChannels s.bus.writerMask) } := by
    rw [CaptureBus.writerMask, List.range_eq_range']
    exact scan_alone hop now kMaxChannels 0 0 s (Nat.zero_add _) hcon
  refine hscan.trans (Repeats.service_head hop rfl ?_)
  have hcompare : ({ s with con := .service (.scanning kMaxChannels s.bus.writerMask) } :
      CaptureRun).serviceStep now (.scanning kMaxChannels s.bus.writerMask) =
        if s.bus.writerMask ≠ s.bus.consumerWriterMask then
          { s with
            bus := { s.bus with consumerWriterMask := s.bus.writerMask }
            con := .service (.raising .loadSeen) }
        else { s with con := .service .gateCheck } := by
    rw [serviceStep, if_neg (Nat.lt_irrefl _)]
  rw [hcompare, CaptureBus.checkWriters]
  split
  · exact Repeats.service_head hop rfl (Repeats.service_head hop rfl
      (Repeats.service_head hop rfl (.refl _)))
  · exact .refl _

theorem finishResync_alone (now : ℕ) {timedOut : Bool}
    (hcon : s.con = .service (.sampling timedOut 0 0)) :
    ∃ t, (captureRuns hop).Repeats (.consumer now) s t ∧ t.con = .drain .gateCheck ∧
      t.cb = s.cb ∧ t.bus = s.bus.finishResync := by
  obtain ⟨consumed, hdrain⟩ := drain_alone hop now timedOut kMaxChannels 0 0 s (Nat.zero_add _) hcon
  rw [← List.range_eq_range'] at hdrain
  exact ⟨_, hdrain.trans (Repeats.service_head hop rfl (.refl _)), rfl, rfl, rfl⟩

end CaptureRun

end RtaTool
