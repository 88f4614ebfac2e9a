import RtaTool.Dsp.DualFftEngine

/-!
# Which samples a frame pairs

Between calls the two rings hold the two streams, each less its lead, from the next frame on, and
one of them less than a frame. So there is always room: the fuller ring is ahead by the delay, and
its capacity is four frames and the delay. Every turn of the loop in `process` then takes samples
in, the turn that only drains is never needed, and how the streams were cut leaves no trace.

## Main definitions

* `AlignedAt`, `Drained` -- the invariant
* `sinceReset` -- the samples since the last `reset`
* `framePair` -- a frame pair of a stream

## Main results

* `AlignedAt.drainFrames`, `AlignedAt.process` -- what the two loops do
* `alignedAt_of_make`, `exists_make` -- what the constructor does
* `frames_of_run` -- **Headline.** The frame pairs after any sequence of calls
-/

namespace RtaTool

variable {Sample : Type}

namespace DualFftEngine

/-! ### The invariant -/

/-- What the constructor makes sure of. -/
structure Accepted (config : DualFftConfig) : Prop where
  hop_pos : 0 < config.hopSize
  hop_le : config.hopSize ≤ config.fftSize

/-- The engine of a configuration after the two streams given. -/
structure AlignedAt (config : DualFftConfig) (e : DualFftEngine Sample)
    (refs meas : List Sample) : Prop where
  config_eq : e.config = config
  length_eq : refs.length = meas.length
  referenceSkip : e.referenceSkip = config.referenceLead - refs.length
  measurementSkip : e.measurementSkip = config.measurementLead - meas.length
  reference : e.referenceRing.Holding
    ((refs.drop config.referenceLead).drop (e.frames.length * config.hopSize))
  measurement : e.measurementRing.Holding
    ((meas.drop config.measurementLead).drop (e.frames.length * config.hopSize))
  referenceRoom : config.fftSize * 4 + config.referenceDelaySamples.natAbs ≤
    e.referenceRing.capacity
  measurementRoom : config.fftSize * 4 + config.referenceDelaySamples.natAbs ≤
    e.measurementRing.capacity
  frameCount : e.frameCount = e.frames.length
  frames : ∀ j < e.frames.length, e.frames[j]? = some
    (frameAt config.hopSize config.fftSize (refs.drop config.referenceLead) j,
      frameAt config.hopSize config.fftSize (meas.drop config.measurementLead) j)
  referenceFits : ∀ j < e.frames.length,
    j * config.hopSize + config.fftSize ≤ (refs.drop config.referenceLead).length
  measurementFits : ∀ j < e.frames.length,
    j * config.hopSize + config.fftSize ≤ (meas.drop config.measurementLead).length

/-- One of the rings has less than a frame. -/
def Drained (config : DualFftConfig) (e : DualFftEngine Sample) (refs meas : List Sample) : Prop :=
  min (refs.drop config.referenceLead).length (meas.drop config.measurementLead).length <
    e.frames.length * config.hopSize + config.fftSize

theorem lead_add (config : DualFftConfig) :
    config.referenceLead + config.measurementLead = config.referenceDelaySamples.natAbs ∧
      (config.referenceLead = 0 ∨ config.measurementLead = 0) := by
  rw [DualFftConfig.referenceLead, DualFftConfig.measurementLead]
  split <;> split <;> omega

namespace AlignedAt

variable {config : DualFftConfig} {e : DualFftEngine Sample} {refs meas : List Sample}

/-! ### Draining -/

theorem takeFramePair (h : AlignedAt config e refs meas)
    (href : e.frames.length * config.hopSize + config.fftSize ≤
      (refs.drop config.referenceLead).length)
    (hmeas : e.frames.length * config.hopSize + config.fftSize ≤
      (meas.drop config.measurementLead).length) :
    AlignedAt config e.takeFramePair refs meas := by
  obtain ⟨rfl⟩ := h.config_eq
  have hlength : e.takeFramePair.frames.length = e.frames.length + 1 := List.length_append
  have hheld : ∀ xs : List Sample,
      (xs.drop (e.frames.length * e.config.hopSize)).drop e.config.hopSize =
        xs.drop (e.takeFramePair.frames.length * e.config.hopSize) := by
    intro xs
    rw [List.drop_drop, hlength, Nat.succ_mul]
  have hlt : ∀ j < e.takeFramePair.frames.length, j < e.frames.length ∨ j = e.frames.length := by
    intro j hj
    omega
  refine
    { config_eq := rfl
      length_eq := h.length_eq
      referenceSkip := h.referenceSkip
      measurementSkip := h.measurementSkip
      reference := hheld _ ▸ (h.reference.discard e.config.hopSize).1
      measurement := hheld _ ▸ (h.measurement.discard e.config.hopSize).1
      referenceRoom := h.referenceRoom
      measurementRoom := h.measurementRoom
      frameCount := (congrArg (· + 1) h.frameCount).trans hlength.symm
      frames := ?_
      referenceFits := ?_
      measurementFits := ?_ }
  · intro j hj
    show (e.frames ++ [_])[j]? = _
    rcases hlt j hj with hj | rfl
    · rw [List.getElem?_append_left hj]
      exact h.frames j hj
    · rw [List.getElem?_append_right (Nat.le_refl _), Nat.sub_self, h.reference.peek,
        h.measurement.peek]
      rfl
  · intro j hj
    rcases hlt j hj with hj | rfl
    · exact h.referenceFits j hj
    · exact href
  · intro j hj
    rcases hlt j hj with hj | rfl
    · exact h.measurementFits j hj
    · exact hmeas

theorem referenceAvailable (h : AlignedAt config e refs meas) :
    e.referenceRing.availableToRead.toNat =
      (refs.drop config.referenceLead).length - e.frames.length * config.hopSize := by
  rw [h.reference.availableToRead, List.length_drop]

theorem measurementAvailable (h : AlignedAt config e refs meas) :
    e.measurementRing.availableToRead.toNat =
      (meas.drop config.measurementLead).length - e.frames.length * config.hopSize := by
  rw [h.measurement.availableToRead, List.length_drop]

theorem drainFramesFrom (hc : Accepted config) {fuel : ℕ} :
    ∀ {e : DualFftEngine Sample}, AlignedAt config e refs meas →
      e.measurementRing.availableToRead.toNat < fuel →
      ∃ e', DualFftEngine.drainFramesFrom fuel e = .ok e' ∧ AlignedAt config e' refs meas ∧
        Drained config e' refs meas := by
  have hfft : 0 < config.fftSize := Nat.lt_of_lt_of_le hc.hop_pos hc.hop_le
  induction fuel with
  | zero => exact fun _ hfuel => absurd hfuel (Nat.not_lt_zero _)
  | succ fuel ih =>
    intro e h hfuel
    have hrefAvailable := h.referenceAvailable
    have hmeasAvailable := h.measurementAvailable
    rw [DualFftEngine.drainFramesFrom, h.config_eq]
    split
    · rename_i hboth
      have href : e.frames.length * config.hopSize + config.fftSize ≤
          (refs.drop config.referenceLead).length := by omega
      have hmeas : e.frames.length * config.hopSize + config.fftSize ≤
          (meas.drop config.measurementLead).length := by omega
      have hnotShort : ¬ ((e.referenceRing.peek config.fftSize 0).length ≠ config.fftSize ∨
          (e.measurementRing.peek config.fftSize 0).length ≠ config.fftSize) := by
        rw [h.reference.peek, h.measurement.peek]
        simp only [List.length_take, List.length_drop] at href hmeas ⊢
        omega
      rw [if_neg hnotShort]
      refine ih (h.takeFramePair href hmeas) ?_
      have hdiscarded := (h.measurement.discard e.config.hopSize).1.availableToRead
      show ((e.measurementRing.discard e.config.hopSize).2).availableToRead.toNat < fuel
      rw [hdiscarded, List.length_drop, List.length_drop, h.config_eq]
      have := hc.hop_pos
      omega
    · rename_i hshort
      refine ⟨e, rfl, h, ?_⟩
      rw [Drained]
      omega

section

variable (hc : Accepted config) (h : AlignedAt config e refs meas)

include hc h

/-- `drainFrames` returns, and leaves one of the rings with less than a frame. -/
theorem drainFrames :
    ∃ e', e.drainFrames = .ok e' ∧ AlignedAt config e' refs meas ∧ Drained config e' refs meas :=
  h.drainFramesFrom hc (Nat.lt_succ_self _)

/-! ### Writing -/

theorem referenceTaken :
    e.frames.length * config.hopSize ≤ (refs.drop config.referenceLead).length :=
  mul_hop_le hc.hop_le h.referenceFits

theorem measurementTaken :
    e.frames.length * config.hopSize ≤ (meas.drop config.measurementLead).length :=
  mul_hop_le hc.hop_le h.measurementFits

end

/-- The frames analysed so far are frames of the longer streams too. -/
theorem extend (h : AlignedAt config e refs meas) {reference measurement : List Sample}
    (hlength : reference.length = measurement.length)
    {referenceRing measurementRing : RingBuffer Sample} {referenceSkip measurementSkip : ℕ}
    (hreferenceSkip : referenceSkip = config.referenceLead - (refs ++ reference).length)
    (hmeasurementSkip : measurementSkip = config.measurementLead - (meas ++ measurement).length)
    (hreference : referenceRing.Holding
      (((refs ++ reference).drop config.referenceLead).drop (e.frames.length * config.hopSize)))
    (hmeasurement : measurementRing.Holding
      (((meas ++ measurement).drop config.measurementLead).drop
        (e.frames.length * config.hopSize)))
    (hreferenceRoom : referenceRing.capacity = e.referenceRing.capacity)
    (hmeasurementRoom : measurementRing.capacity = e.measurementRing.capacity) :
    AlignedAt config
      { e with
        referenceRing := referenceRing
        measurementRing := measurementRing
        referenceSkip := referenceSkip
        measurementSkip := measurementSkip }
      (refs ++ reference) (meas ++ measurement) where
  config_eq := h.config_eq
  length_eq := by rw [List.length_append, List.length_append, h.length_eq, hlength]
  referenceSkip := hreferenceSkip
  measurementSkip := hmeasurementSkip
  reference := hreference
  measurement := hmeasurement
  referenceRoom := hreferenceRoom.symm ▸ h.referenceRoom
  measurementRoom := hmeasurementRoom.symm ▸ h.measurementRoom
  frameCount := h.frameCount
  frames := by
    intro j hj
    rw [List.drop_append, List.drop_append, frameAt_append (h.referenceFits j hj),
      frameAt_append (h.measurementFits j hj)]
    exact h.frames j hj
  referenceFits := by
    intro j hj
    rw [List.drop_append, List.length_append]
    exact Nat.le_add_right_of_le (h.referenceFits j hj)
  measurementFits := by
    intro j hj
    rw [List.drop_append, List.length_append]
    exact Nat.le_add_right_of_le (h.measurementFits j hj)

end AlignedAt

variable {xs samples : List Sample}

theorem holding_write {r : RingBuffer Sample} {lead k : ℕ}
    (h : r.Holding ((xs.drop lead).drop k)) (hlead : lead ≤ xs.length)
    (hk : k ≤ (xs.drop lead).length) (hroom : samples.length ≤ r.availableToWrite.toNat) :
    (r.write samples).2.Holding (((xs ++ samples).drop lead).drop k) ∧
      (r.write samples).2.capacity = r.capacity := by
  rw [h.availableToWrite] at hroom
  have hle := h.length_le
  rw [List.drop_append_of_le_length hlead, List.drop_append_of_le_length hk]
  exact h.write (by omega)

theorem drop_within_lead {lead : ℕ}
    (h : xs.length + samples.length ≤ lead) : (xs ++ samples).drop lead = xs.drop lead := by
  rw [List.drop_eq_nil_of_le (List.length_append.trans_le h), List.drop_eq_nil_of_le (by omega)]

namespace AlignedAt

variable {config : DualFftConfig} {e : DualFftEngine Sample} {refs meas : List Sample}

variable {reference measurement : List Sample}

section

variable (hc : Accepted config) (h : AlignedAt config e refs meas)

include hc h

theorem skipMeasurement (hlength : reference.length = measurement.length)
    (hskip : 0 < e.measurementSkip) (hle : reference.length ≤ e.measurementSkip)
    (hroom : reference.length ≤ e.referenceRing.availableToWrite.toNat) :
    AlignedAt config (e.skipMeasurement reference) (refs ++ reference) (meas ++ measurement) ∧
      Drained config (e.skipMeasurement reference) (refs ++ reference) (meas ++ measurement) := by
  have hleads := lead_add config
  have hfft : 0 < config.fftSize := Nat.lt_of_lt_of_le hc.hop_pos hc.hop_le
  have hskipEq := h.measurementSkip
  have hreferenceSkip := h.referenceSkip
  have hwritten := holding_write h.reference (by omega) (h.referenceTaken hc) hroom
  have hwithin : (meas ++ measurement).drop config.measurementLead =
      meas.drop config.measurementLead := drop_within_lead (by omega)
  refine ⟨h.extend hlength ?_ ?_ hwritten.1 ?_ hwritten.2 rfl, ?_⟩
  · rw [List.length_append]
    omega
  · rw [List.length_append]
    omega
  · rw [hwithin]
    exact h.measurement
  · rw [Drained, hwithin, List.drop_eq_nil_of_le (show meas.length ≤ config.measurementLead by omega),
      List.length_nil, Nat.min_zero]
    omega

theorem skipReference (hlength : reference.length = measurement.length)
    (hskip : 0 < e.referenceSkip) (hle : measurement.length ≤ e.referenceSkip)
    (hroom : measurement.length ≤ e.measurementRing.availableToWrite.toNat) :
    AlignedAt config (e.skipReference measurement) (refs ++ reference) (meas ++ measurement) ∧
      Drained config (e.skipReference measurement) (refs ++ reference) (meas ++ measurement) := by
  have hleads := lead_add config
  have hfft : 0 < config.fftSize := Nat.lt_of_lt_of_le hc.hop_pos hc.hop_le
  have hskipEq := h.referenceSkip
  have hmeasurementSkip := h.measurementSkip
  have hwritten := holding_write h.measurement (by omega) (h.measurementTaken hc) hroom
  have hwithin : (refs ++ reference).drop config.referenceLead = refs.drop config.referenceLead :=
    drop_within_lead (by omega)
  refine ⟨h.extend hlength ?_ ?_ ?_ hwritten.1 rfl hwritten.2, ?_⟩
  · rw [List.length_append]
    omega
  · rw [List.length_append]
    omega
  · rw [hwithin]
    exact h.reference
  · rw [Drained, hwithin, List.drop_eq_nil_of_le (show refs.length ≤ config.referenceLead by omega),
      List.length_nil, Nat.zero_min]
    omega

theorem writeBoth (hlength : reference.length = measurement.length)
    (hreferenceSkip : ¬ 0 < e.referenceSkip) (hmeasurementSkip : ¬ 0 < e.measurementSkip)
    (hroom : reference.length ≤ e.roomOfBoth) :
    AlignedAt config (e.writeBoth reference measurement) (refs ++ reference)
      (meas ++ measurement) := by
  have href := h.referenceSkip
  have hmeas := h.measurementSkip
  rw [roomOfBoth] at hroom
  have hreference := holding_write h.reference (by omega) (h.referenceTaken hc)
    (show reference.length ≤ _ by omega)
  have hmeasurement := holding_write h.measurement (by omega) (h.measurementTaken hc)
    (show measurement.length ≤ _ by omega)
  refine h.extend hlength ?_ ?_ hreference.1 hmeasurement.1 hreference.2 hmeasurement.2
  · rw [List.length_append]
    omega
  · rw [List.length_append]
    omega

/-! ### Room -/

theorem referenceRoom_pos
    (hskip : 0 < e.measurementSkip) : 0 < e.referenceRing.availableToWrite.toNat := by
  have hleads := lead_add config
  have hfft : 0 < config.fftSize := Nat.lt_of_lt_of_le hc.hop_pos hc.hop_le
  have hskipEq := h.measurementSkip
  have hlength := h.length_eq
  have hcapacity := h.referenceRoom
  rw [h.reference.availableToWrite, List.length_drop, List.length_drop]
  omega

theorem measurementRoom_pos
    (hskip : 0 < e.referenceSkip) : 0 < e.measurementRing.availableToWrite.toNat := by
  have hleads := lead_add config
  have hfft : 0 < config.fftSize := Nat.lt_of_lt_of_le hc.hop_pos hc.hop_le
  have hskipEq := h.referenceSkip
  have hlength := h.length_eq
  have hcapacity := h.measurementRoom
  rw [h.measurement.availableToWrite, List.length_drop, List.length_drop]
  omega

omit hc h in
theorem held_lt (h : AlignedAt config e refs meas) (hdrained : Drained config e refs meas) :
    refs.length < e.frames.length * config.hopSize + config.fftSize +
      config.referenceDelaySamples.natAbs := by
  obtain ⟨hsum, -⟩ := lead_add config
  have hlength := h.length_eq
  rw [Drained, List.length_drop, List.length_drop, ← hlength, Nat.sub_min_sub_left] at hdrained
  have hmax : max config.referenceLead config.measurementLead ≤
      config.referenceLead + config.measurementLead :=
    max_le (Nat.le_add_right _ _) (Nat.le_add_left _ _)
  omega

theorem roomOfBoth_pos (hdrained : Drained config e refs meas) : 0 < e.roomOfBoth := by
  have hfft : 0 < config.fftSize := Nat.lt_of_lt_of_le hc.hop_pos hc.hop_le
  have hheld := h.held_lt hdrained
  have hlength := h.length_eq
  have hreference := h.referenceRoom
  have hmeasurement := h.measurementRoom
  rw [roomOfBoth, h.reference.availableToWrite, h.measurement.availableToWrite, List.length_drop,
    List.length_drop, List.length_drop, List.length_drop]
  exact lt_min (by omega) (by omega)

/-! ### The loop of `process` -/

/-- A turn of the loop takes samples in, and never has to drain for room. -/
theorem exists_turn (hdrained : Drained config e refs meas)
    (hlength : reference.length = measurement.length) (hsome : reference.length ≠ 0) :
    ∃ n > 0, ∃ e', AlignedAt config e' (refs ++ reference.take n) (meas ++ measurement.take n) ∧
      Drained config e' (refs ++ reference.take n) (meas ++ measurement.take n) ∧
      ∀ fuel, DualFftEngine.processFrom (fuel + 1) e reference measurement =
        DualFftEngine.processFrom fuel e' (reference.drop n) (measurement.drop n) := by
  have htaken : ∀ n, (reference.take n).length = (measurement.take n).length := by
    intro n
    rw [List.length_take, List.length_take, hlength]
  by_cases hmeasurement : 0 < e.measurementSkip
  · have hroom := h.referenceRoom_pos hc hmeasurement
    have hn : (reference.take (min (min e.measurementSkip reference.length)
        e.referenceRing.availableToWrite.toNat)).length =
        min (min e.measurementSkip reference.length) e.referenceRing.availableToWrite.toNat :=
      List.length_take_of_le ((Nat.min_le_left _ _).trans (Nat.min_le_right _ _))
    obtain ⟨hnext, hrest⟩ := h.skipMeasurement hc (htaken _) hmeasurement
      (hn.trans_le ((Nat.min_le_left _ _).trans (Nat.min_le_left _ _)))
      (hn.trans_le (Nat.min_le_right _ _))
    refine ⟨_, by omega, _, hnext, hrest, fun fuel => ?_⟩
    rw [DualFftEngine.processFrom, if_neg hsome, if_pos hmeasurement]
    exact if_neg (Nat.pos_iff_ne_zero.mp hroom)
  by_cases hreference : 0 < e.referenceSkip
  · have hroom := h.measurementRoom_pos hc hreference
    have hn : (measurement.take (min (min e.referenceSkip reference.length)
        e.measurementRing.availableToWrite.toNat)).length =
        min (min e.referenceSkip reference.length) e.measurementRing.availableToWrite.toNat :=
      List.length_take_of_le (hlength ▸ (Nat.min_le_left _ _).trans (Nat.min_le_right _ _))
    obtain ⟨hnext, hrest⟩ := h.skipReference hc (htaken _) hreference
      (hn.trans_le ((Nat.min_le_left _ _).trans (Nat.min_le_left _ _)))
      (hn.trans_le (Nat.min_le_right _ _))
    refine ⟨_, by omega, _, hnext, hrest, fun fuel => ?_⟩
    rw [DualFftEngine.processFrom, if_neg hsome, if_neg hmeasurement, if_pos hreference]
    exact if_neg (Nat.pos_iff_ne_zero.mp hroom)
  · have hroom := h.roomOfBoth_pos hc hdrained
    have hwritten := h.writeBoth hc (htaken (min e.roomOfBoth reference.length)) hreference
      hmeasurement (by
        rw [List.length_take]
        omega)
    obtain ⟨e', hdrain, halign, hrest⟩ := hwritten.drainFrames hc
    refine ⟨min e.roomOfBoth reference.length, by omega, e', halign, hrest, fun fuel => ?_⟩
    rw [DualFftEngine.processFrom, if_neg hsome, if_neg hmeasurement, if_neg hreference]
    refine (if_neg (Nat.pos_iff_ne_zero.mp hroom)).trans ?_
    dsimp only
    rw [hdrain]
    rfl

omit hc h in
theorem processFrom (hc : Accepted config) {fuel : ℕ} :
    ∀ {e : DualFftEngine Sample} {refs meas reference measurement : List Sample},
      AlignedAt config e refs meas → Drained config e refs meas →
      reference.length = measurement.length → reference.length ≤ fuel →
      ∃ e', DualFftEngine.processFrom fuel e reference measurement = .ok e' ∧
        AlignedAt config e' (refs ++ reference) (meas ++ measurement) ∧
        Drained config e' (refs ++ reference) (meas ++ measurement) := by
  induction fuel with
  | zero =>
    intro e refs meas reference measurement h hdrained hlength hfuel
    have hnil := List.length_eq_zero_iff.mp (Nat.le_zero.mp hfuel)
    have hnil' := List.length_eq_zero_iff.mp (hlength.symm.trans (Nat.le_zero.mp hfuel))
    subst hnil hnil'
    rw [List.append_nil, List.append_nil]
    exact ⟨e, rfl, h, hdrained⟩
  | succ fuel ih =>
    intro e refs meas reference measurement h hdrained hlength hfuel
    by_cases hnone : reference.length = 0
    · have hnil := List.length_eq_zero_iff.mp hnone
      have hnil' := List.length_eq_zero_iff.mp (hlength.symm.trans hnone)
      subst hnil hnil'
      rw [List.append_nil, List.append_nil]
      exact ⟨e, rfl, h, hdrained⟩
    · obtain ⟨n, hn, e₁, h₁, hdrained₁, hturn⟩ := h.exists_turn hc hdrained hlength hnone
      have hrest : (reference.drop n).length = (measurement.drop n).length := by
        rw [List.length_drop, List.length_drop, hlength]
      have hshorter : (reference.drop n).length ≤ fuel := by
        rw [List.length_drop]
        omega
      have hrun := ih h₁ hdrained₁ hrest hshorter
      rw [List.append_assoc, List.append_assoc, List.take_append_drop,
        List.take_append_drop] at hrun
      rw [hturn fuel]
      exact hrun

/-- A call of `process` returns, with the two streams that much longer. -/
theorem process
    (hdrained : Drained config e refs meas) (hlength : reference.length = measurement.length) :
    ∃ e', e.process reference measurement = .ok e' ∧
      AlignedAt config e' (refs ++ reference) (meas ++ measurement) ∧
      Drained config e' (refs ++ reference) (meas ++ measurement) := by
  rw [DualFftEngine.process, if_neg (not_not.mpr hlength)]
  exact h.processFrom hc hdrained hlength (Nat.le_mul_of_pos_left _ (by decide))

end

theorem armDelaySkip (hconfig : e.config = config) (hreference : e.referenceRing.Holding [])
    (hmeasurement : e.measurementRing.Holding [])
    (hreferenceRoom : config.fftSize * 4 + config.referenceDelaySamples.natAbs ≤
      e.referenceRing.capacity)
    (hmeasurementRoom : config.fftSize * 4 + config.referenceDelaySamples.natAbs ≤
      e.measurementRing.capacity)
    (hcount : e.frameCount = 0) (hframes : e.frames = []) :
    AlignedAt config e.armDelaySkip [] [] := by
  have hnone : e.armDelaySkip.frames.length = 0 := congrArg List.length hframes
  obtain ⟨rfl⟩ := hconfig
  refine
    { config_eq := rfl
      length_eq := rfl
      referenceSkip := rfl
      measurementSkip := rfl
      reference := ?_
      measurement := ?_
      referenceRoom := hreferenceRoom
      measurementRoom := hmeasurementRoom
      frameCount := hcount.trans hnone.symm
      frames := ?_
      referenceFits := ?_
      measurementFits := ?_ }
  · rw [List.drop_nil, List.drop_nil]
    exact hreference
  · rw [List.drop_nil, List.drop_nil]
    exact hmeasurement
  all_goals
    intro j hj
    omega

theorem reset (h : AlignedAt config e refs meas) : AlignedAt config e.reset [] [] :=
  armDelaySkip h.config_eq (.reset e.referenceRing) (.reset e.measurementRing) h.referenceRoom
    h.measurementRoom rfl rfl

end AlignedAt

variable {config : DualFftConfig} {e : DualFftEngine Sample}

/-- Without samples there is no frame. -/
theorem Accepted.drained_nil (hc : Accepted config) : Drained config e [] [] := by
  have hfft : 0 < config.fftSize := Nat.lt_of_lt_of_le hc.hop_pos hc.hop_le
  rw [Drained, List.drop_nil, List.drop_nil, List.length_nil, Nat.min_self]
  omega

/-! ### The constructor -/

theorem ok_of_bind.{u, v} {Error : Type u} {α β : Type v} {x : Except Error α}
    {f : α → Except Error β} {b : β} (h : x >>= f = .ok b) : ∃ a, x = .ok a ∧ f a = .ok b := by
  cases x with
  | error error => cases h
  | ok a => exact ⟨a, rfl, h⟩

theorem le_maxFloats {length : ℕ} (h : checkFloats length = .ok ()) : length ≤ maxFloats := by
  rw [checkFloats] at h
  split at h
  · cases h
  · rename_i hle
    exact Nat.not_lt.mp hle

/-- An accepted size is a length of a vector. -/
theorem le_maxFloats_of_fftSize {size : ℕ} (h : checkFftSize size = .ok ()) : size ≤ maxFloats := by
  rw [checkFftSize] at h
  split at h
  · cases h
  · obtain ⟨⟨⟩, hfloats, -⟩ := ok_of_bind h
    exact le_maxFloats hfloats

theorem skipMagnitude_eq {skip : ℕ} (h : config.skipMagnitude = .ok skip) :
    skip = config.referenceDelaySamples.natAbs ∧ skip ≤ 2 ^ 20 := by
  rw [DualFftConfig.skipMagnitude] at h
  split at h
  · cases h
  · rename_i hbound
    rw [kMaxReferenceDelaySamples] at hbound
    cases h
    omega

theorem accepted_of_validate (h : config.validate = .ok ()) : Accepted config := by
  rw [DualFftConfig.validate] at h
  split at h
  · cases h
  · rename_i hhop
    exact ⟨by omega, by omega⟩

theorem le_bufferCapacity {fftSize skip : ℕ} (hfft : fftSize ≤ maxFloats) (hskip : skip ≤ 2 ^ 20) :
    fftSize * 4 + skip ≤ bufferCapacity fftSize skip := by
  rw [maxFloats] at hfft
  have hwrap : (fftSize * 4 + skip) % 2 ^ 64 = fftSize * 4 + skip := Nat.mod_eq_of_lt (by omega)
  rw [bufferCapacity, hwrap]
  exact (Nat.le_max_left _ _).trans (RingBuffer.le_nextPowerOfTwo _)

/-- A new ring is empty, and as large as it was asked for. -/
theorem holding_of_makeRing [Inhabited Sample] {n : ℕ} {r : RingBuffer Sample}
    (h : makeRing n = .ok r) : r.Holding [] ∧ n ≤ r.capacity := by
  rw [makeRing] at h
  split at h
  · cases h
  · rename_i ring hmake
    obtain ⟨⟨⟩, -, h⟩ := ok_of_bind h
    cases h
    exact ⟨.of_make hmake, RingBuffer.le_capacity_of_make hmake⟩

/-- What the constructor lets through, and what it makes of it. -/
theorem alignedAt_of_make [Inhabited Sample] (h : make config = .ok e) :
    Accepted config ∧ AlignedAt config e [] [] := by
  rw [make] at h
  obtain ⟨⟨⟩, hsize, h⟩ := ok_of_bind h
  obtain ⟨skip, hskip, h⟩ := ok_of_bind h
  obtain ⟨referenceRing, hreference, h⟩ := ok_of_bind h
  obtain ⟨measurementRing, hmeasurement, h⟩ := ok_of_bind h
  obtain ⟨⟨⟩, hvalid, h⟩ := ok_of_bind h
  cases h
  obtain ⟨rfl, hbound⟩ := skipMagnitude_eq hskip
  obtain ⟨hreferenceNil, hreferenceRoom⟩ := holding_of_makeRing hreference
  obtain ⟨hmeasurementNil, hmeasurementRoom⟩ := holding_of_makeRing hmeasurement
  have hcapacity := le_bufferCapacity (le_maxFloats_of_fftSize hsize) hbound
  exact ⟨accepted_of_validate hvalid, .armDelaySkip rfl hreferenceNil hmeasurementNil
    (hcapacity.trans hreferenceRoom) (hcapacity.trans hmeasurementRoom) rfl rfl⟩

theorem exists_makeRing [Inhabited Sample] {n : ℕ} (hpos : n ≠ 0) (hle : n ≤ 2 ^ 60) :
    ∃ r : RingBuffer Sample, makeRing n = .ok r := by
  obtain ⟨r, hmake, hcapacity⟩ := RingBuffer.exists_make (T := Sample) hpos hle (by decide)
  have hfloats : checkFloats r.capacity = .ok () := if_neg (by
    rw [maxFloats]
    omega)
  rw [makeRing, hmake]
  dsimp only
  rw [hfloats]
  exact ⟨r, rfl⟩

/-- The constructor refuses what its checks refuse, and rings that do not fit in a vector. -/
theorem exists_make [Inhabited Sample] {skip : ℕ} (hsize : checkFftSize config.fftSize = .ok ())
    (hskip : config.skipMagnitude = .ok skip) (hroom : config.fftSize * 4 + skip ≤ 2 ^ 58)
    (hvalid : config.validate = .ok ()) : ∃ e : DualFftEngine Sample, make config = .ok e := by
  have hcapacity : bufferCapacity config.fftSize skip ≤ 2 ^ 58 := by
    refine RingBuffer.nextPowerOfTwo_le (max_le ?_ (by decide))
    exact (Nat.mod_le _ _).trans hroom
  have hpos : bufferCapacity config.fftSize skip ≠ 0 := by
    have hle : 4096 ≤ bufferCapacity config.fftSize skip :=
      (Nat.le_max_right _ _).trans (RingBuffer.le_nextPowerOfTwo _)
    omega
  obtain ⟨r, hr⟩ : ∃ r : RingBuffer Sample, makeRing (bufferCapacity config.fftSize skip) = .ok r :=
    exists_makeRing hpos (hcapacity.trans (by decide))
  rw [make, hsize, hskip, hvalid]
  dsimp only [bind, Except.bind]
  rw [hr]
  exact ⟨_, rfl⟩

/-! ### Sequences of calls -/

theorem run_cons (e : DualFftEngine Sample) (c : EngineCall Sample)
    (calls : List (EngineCall Sample)) : e.run (c :: calls) = e.call c >>= (·.run calls) :=
  List.foldlM_cons

end DualFftEngine

open DualFftEngine

/-- The stream that an engine has been given since its last reset. -/
def EngineCall.extend (stream : List (Sample × Sample)) : EngineCall Sample → List (Sample × Sample)
  | .process span => stream ++ span
  | .reset => []

/-- The samples since the last `reset`. -/
def sinceReset (calls : List (EngineCall Sample)) : List (Sample × Sample) :=
  calls.foldl EngineCall.extend []

/-- The `j`-th frame pair of a stream, if the stream is long enough. -/
def framePair (config : DualFftConfig) (stream : List (Sample × Sample)) (j : ℕ) :
    Option (List Sample × List Sample) :=
  let reference := (max 0 (-config.referenceDelaySamples)).toNat + j * config.hopSize
  let measurement := (max 0 config.referenceDelaySamples).toNat + j * config.hopSize
  if reference + config.fftSize ≤ stream.length ∧ measurement + config.fftSize ≤ stream.length then
    some (((stream.map (·.1)).drop reference).take config.fftSize,
      ((stream.map (·.2)).drop measurement).take config.fftSize)
  else none

variable {config : DualFftConfig}

theorem referenceLead_eq (config : DualFftConfig) :
    config.referenceLead = (max 0 (-config.referenceDelaySamples)).toNat := by
  rw [DualFftConfig.referenceLead]
  split <;> omega

theorem measurementLead_eq (config : DualFftConfig) :
    config.measurementLead = (max 0 config.referenceDelaySamples).toNat := by
  rw [DualFftConfig.measurementLead]
  split <;> omega

namespace DualFftEngine

variable {stream : List (Sample × Sample)} {e : DualFftEngine Sample}

theorem AlignedAt.getElem?_frames
    (hc : Accepted config) (h : AlignedAt config e (stream.map (·.1)) (stream.map (·.2)))
    (hdrained : Drained config e (stream.map (·.1)) (stream.map (·.2))) (j : ℕ) :
    e.frames[j]? = framePair config stream j := by
  have hfft : 0 < config.fftSize := Nat.lt_of_lt_of_le hc.hop_pos hc.hop_le
  have hfits : ∀ j < e.frames.length, j * config.hopSize + config.fftSize ≤
      min ((stream.map (·.1)).drop config.referenceLead).length
        ((stream.map (·.2)).drop config.measurementLead).length :=
    fun j hj => Nat.le_min.mpr ⟨h.referenceFits j hj, h.measurementFits j hj⟩
  have hcomplete := complete_of_fits hfits hdrained j
  rw [List.length_drop, List.length_drop, List.length_map, List.length_map] at hcomplete
  rw [framePair, ← referenceLead_eq, ← measurementLead_eq]
  split
  · rw [h.frames j (hcomplete.mpr (by omega)), frameAt, frameAt, List.drop_drop, List.drop_drop]
  · rw [List.getElem?_eq_none_iff, ← Nat.not_lt, hcomplete]
    omega

/-- Every call returns, and keeps the invariant of the longer stream. -/
theorem AlignedAt.call
    (hc : Accepted config) (h : AlignedAt config e (stream.map (·.1)) (stream.map (·.2)))
    (hdrained : Drained config e (stream.map (·.1)) (stream.map (·.2))) (c : EngineCall Sample) :
    ∃ e', e.call c = .ok e' ∧
      AlignedAt config e' ((EngineCall.extend stream c).map (·.1))
        ((EngineCall.extend stream c).map (·.2)) ∧
      Drained config e' ((EngineCall.extend stream c).map (·.1))
        ((EngineCall.extend stream c).map (·.2)) := by
  cases c with
  | process span =>
    have hlength : (span.map (·.1)).length = (span.map (·.2)).length := by
      rw [List.length_map, List.length_map]
    rw [EngineCall.extend, List.map_append, List.map_append]
    exact h.process hc hdrained hlength
  | reset => exact ⟨e.reset, rfl, h.reset, hc.drained_nil⟩

theorem AlignedAt.run (hc : Accepted config) (calls : List (EngineCall Sample)) :
    ∀ {e : DualFftEngine Sample} (stream : List (Sample × Sample)),
      AlignedAt config e (stream.map (·.1)) (stream.map (·.2)) →
      Drained config e (stream.map (·.1)) (stream.map (·.2)) →
      ∃ t, e.run calls = .ok t ∧
        AlignedAt config t ((calls.foldl EngineCall.extend stream).map (·.1))
          ((calls.foldl EngineCall.extend stream).map (·.2)) ∧
        Drained config t ((calls.foldl EngineCall.extend stream).map (·.1))
          ((calls.foldl EngineCall.extend stream).map (·.2)) := by
  induction calls with
  | nil => exact fun {e} _ h hdrained => ⟨e, rfl, h, hdrained⟩
  | cons c calls ih =>
    intro e stream h hdrained
    obtain ⟨e₁, hcall, h₁, hdrained₁⟩ := h.call hc hdrained c
    rw [run_cons, hcall, List.foldl_cons]
    exact ih _ h₁ hdrained₁

end DualFftEngine

/-- **Headline.** Whatever the constructor accepts, and however the streams are cut into calls,
every call returns, and the frame pairs since the last `reset` are the complete ones, each once and
in order, with the delay taken out of the one stream or the other. -/
theorem frames_of_run [Inhabited Sample] {e : DualFftEngine Sample} (hmake : make config = .ok e)
    (calls : List (EngineCall Sample)) :
    ∃ t, e.run calls = .ok t ∧ t.frameCount = t.frames.length ∧
      ∀ j, t.frames[j]? = framePair config (sinceReset calls) j := by
  obtain ⟨hc, halign⟩ := alignedAt_of_make hmake
  obtain ⟨t, hrun, h, hdrained⟩ := AlignedAt.run hc calls [] halign hc.drained_nil
  exact ⟨t, hrun, h.frameCount, h.getElem?_frames hc hdrained⟩

/-- A measurement that lags by one sample, in two calls that cut the first frame, after a third
that a reset undoes. -/
theorem frames_of_run_lagging : ∃ e : DualFftEngine ℕ,
    make { fftSize := 4, hopSize := 2, referenceDelaySamples := 1 } = .ok e ∧
    ∃ t, e.run [.process [(9, 9), (9, 9)], .reset, .process [(1, 0), (2, 1), (3, 2)],
      .process [(4, 3), (5, 4), (6, 5), (7, 6)]] = .ok t ∧
      t.frames = [([1, 2, 3, 4], [1, 2, 3, 4]), ([3, 4, 5, 6], [3, 4, 5, 6])] := by
  have hskip : DualFftConfig.skipMagnitude
      { fftSize := 4, hopSize := 2, referenceDelaySamples := 1 } = .ok 1 := rfl
  obtain ⟨e, hmake⟩ : ∃ e : DualFftEngine ℕ,
      make { fftSize := 4, hopSize := 2, referenceDelaySamples := 1 } = .ok e :=
    exists_make rfl hskip (by decide) rfl
  obtain ⟨t, hrun, -, hframes⟩ := frames_of_run hmake
    [.process [(9, 9), (9, 9)], .reset, .process [(1, 0), (2, 1), (3, 2)],
      .process [(4, 3), (5, 4), (6, 5), (7, 6)]]
  refine ⟨e, hmake, t, hrun, List.ext_getElem? fun j => (hframes j).trans ?_⟩
  match j with
  | 0 => rfl
  | 1 => rfl
  | j + 2 =>
    rw [framePair]
    exact if_neg (by
      simp [sinceReset, EngineCall.extend]
      omega)

end RtaTool
