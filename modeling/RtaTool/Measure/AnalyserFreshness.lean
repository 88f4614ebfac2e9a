import RtaTool.Measure.AnalysisThread

/-!
# Stale analysers are not used

While a rebuild is under way the bank is mixed: the slots below `next` hold analysers of the latest
configuration, the others of some earlier one. A second epoch, a second delay or a build that fails
may come at any point of it. The invariant says what stays true of the fresh slots alone, and that
the configuration a pending rebuild builds from is the latched one. Everything the thread does with
an analyser is guarded by a test of freshness, and every new sweep empties the fresh slots first.

## Main definitions

* `Analyser.BuiltFor` -- built in the sweep of the most recent `begin`, from what it latched
* `FreshOnly`, `RebuildIsSafe` -- the property, on steps of the bank and of the machine
* `BankInv` -- the invariant

## Main results

* `BankInv.step` -- what one step does
* `rebuild_is_safe` -- the property along every run
-/

namespace RtaTool

variable {Settings Hop : Type}

/-! ### The property -/

/-- The analyser comes from the sweep of the most recent `begin`, and from the configuration it
latched. -/
def Analyser.BuiltFor (a : Analyser Settings Hop) (b : AnalyserBank Settings Hop) : Prop :=
  a.config = b.latched ∧ a.sweep = b.sweeps

/-- An analyser after several more calls. -/
def Analyser.callAll (a : Analyser Settings Hop) (cs : List (AnalyserCall Hop)) :
    Analyser Settings Hop :=
  { a with calls := a.calls ++ cs }

/-- What a step does, it does with fresh analysers: those it calls, those a new snapshot was
computed from, and, when the applied delay changes, all of them. -/
structure FreshOnly (b b' : AnalyserBank Settings Hop) : Prop where
  used : ∀ slot a c cs, b.analysers[slot]? = some a →
    b'.analysers[slot]? = some (a.callAll (c :: cs)) →
      b.rebuild.isFresh slot = true ∧ a.BuiltFor b
  published : ∀ snapshot, b'.latest = some snapshot → b.latest ≠ some snapshot →
    ∀ part ∈ snapshot.parts, b.rebuild.isFresh part.1 = true ∧ ∃ a, part.2 = some a ∧ a.BuiltFor b
  applied : b'.appliedReferenceDelay ≠ b.appliedReferenceDelay →
    ∀ slot < kMaxTransferFunctions, ∃ a, b'.analysers[slot]? = some a ∧ a.BuiltFor b' ∧
      a.config.referenceDelaySamples = b'.appliedReferenceDelay

/-- The property of a step of the machine. A failed build moreover leaves the bank as it was. -/
structure RebuildIsSafe (s : AnalysisRun Settings Hop) (act : AnalysisAct Hop)
    (t : AnalysisRun Settings Hop) : Prop where
  fresh : FreshOnly s.bank t.bank
  failed : ∀ e, act = .build (some e) → t.bank = s.bank

/-! ### Calls -/

namespace Analyser

theorem callAll_nil (a : Analyser Settings Hop) : a.callAll [] = a := by
  rw [callAll, List.append_nil]

section

variable (a : Analyser Settings Hop) (c : AnalyserCall Hop) (cs : List (AnalyserCall Hop))

theorem call_callAll : (a.call c).callAll cs = a.callAll (c :: cs) := by
  simp only [callAll, call, List.append_assoc, List.singleton_append]

theorem callAll_cons_ne : a ≠ a.callAll (c :: cs) := by
  intro h
  have hlen := congrArg (·.calls.length) h
  simp [callAll] at hlen

end

theorem BuiltFor.callAll {a : Analyser Settings Hop} {b : AnalyserBank Settings Hop}
    (h : a.BuiltFor b) (cs : List (AnalyserCall Hop)) : (a.callAll cs).BuiltFor b := h

end Analyser

theorem getElem?_callSlot (analysers : List (Analyser Settings Hop)) (slot i : ℕ)
    (c : AnalyserCall Hop) :
    (callSlot analysers slot c)[i]? =
      if slot = i then analysers[i]?.map (·.call c) else analysers[i]? := by
  rw [callSlot, List.getElem?_modify]
  split <;> cases analysers[i]? <;> rfl

/-- The calls of a slot, among those a snapshot makes. -/
def callsOf (reads : List (ℕ × AnalyserCall Hop)) (slot : ℕ) : List (AnalyserCall Hop) :=
  (reads.filter (·.1 = slot)).map (·.2)

variable {reads : List (ℕ × AnalyserCall Hop)}

theorem exists_read_of_callsOf {slot : ℕ}
    (h : callsOf reads slot ≠ []) : ∃ read ∈ reads, read.1 = slot := by
  obtain ⟨c, hc⟩ := List.exists_mem_of_ne_nil _ h
  obtain ⟨read, hread, -⟩ := List.mem_map.mp hc
  exact ⟨read, List.mem_of_mem_filter hread, by simpa using (List.mem_filter.mp hread).2⟩

theorem getElem?_foldl_readSlot (reads : List (ℕ × AnalyserCall Hop)) (slot : ℕ) :
    ∀ r : List (Analyser Settings Hop) × PublishedSnapshot Settings Hop,
      (reads.foldl readSlot r).1[slot]? = r.1[slot]?.map (·.callAll (callsOf reads slot)) := by
  induction reads with
  | nil =>
    intro r
    simp [callsOf, Analyser.callAll_nil]
  | cons read reads ih =>
    intro r
    rw [List.foldl_cons, ih, readSlot, getElem?_callSlot]
    by_cases hslot : read.1 = slot
    · have hcalls : callsOf (read :: reads) slot = read.2 :: callsOf reads slot := by
        simp [callsOf, hslot]
      rw [if_pos hslot, hcalls, Option.map_map]
      congr 1
      funext a
      exact a.call_callAll _ _
    · have hcalls : callsOf (read :: reads) slot = callsOf reads slot := by
        simp [callsOf, hslot]
      rw [if_neg hslot, hcalls]

theorem length_foldl_readSlot (reads : List (ℕ × AnalyserCall Hop)) :
    ∀ r : List (Analyser Settings Hop) × PublishedSnapshot Settings Hop,
      (reads.foldl readSlot r).1.length = r.1.length := by
  induction reads with
  | nil => exact fun _ => rfl
  | cons read reads ih =>
    intro r
    rw [List.foldl_cons, ih, readSlot, callSlot, List.length_modify]

theorem mem_parts_foldl_readSlot {part : ℕ × Option (Analyser Settings Hop)} :
    ∀ {r : List (Analyser Settings Hop) × PublishedSnapshot Settings Hop},
      part ∈ (reads.foldl readSlot r).2.parts →
        part ∈ r.2.parts ∨ (∃ read ∈ reads, read.1 = part.1) ∧
          ∃ cs, part.2 = r.1[part.1]?.map (·.callAll cs) := by
  induction reads with
  | nil => exact fun h => .inl h
  | cons read reads ih =>
    intro r h
    rcases ih h with h | ⟨⟨later, hlater, heq⟩, cs, hcs⟩
    · rcases List.mem_append.mp h with h | h
      · exact .inl h
      · rw [List.mem_singleton.mp h]
        refine .inr ⟨⟨read, List.mem_cons_self, rfl⟩, [], ?_⟩
        simp [Analyser.callAll_nil]
    · refine .inr ⟨⟨later, List.mem_cons_of_mem _ hlater, heq⟩, ?_⟩
      rw [hcs, readSlot, getElem?_callSlot]
      split
      · refine ⟨read.2 :: cs, ?_⟩
        rw [Option.map_map]
        congr 1
        funext a
        exact a.call_callAll _ _
      · exact ⟨cs, rfl⟩

/-! ### The invariant -/

/-- What holds of the bank between any two steps. -/
structure BankInv (b : AnalyserBank Settings Hop) : Prop where
  slots_eq : b.rebuild.slots = kMaxTransferFunctions
  next_le : b.rebuild.next ≤ kMaxTransferFunctions
  length_eq : b.analysers.length = kMaxTransferFunctions
  config_eq : b.rebuild.pending = true → b.rebuild.config = b.latched
  fresh : ∀ slot a, b.rebuild.isFresh slot = true → b.analysers[slot]? = some a → a.BuiltFor b

namespace BankInv

theorem construct [Inhabited Settings] (config : AnalyserConfig Settings) :
    BankInv (AnalyserBank.construct config : AnalyserBank Settings Hop) where
  slots_eq := rfl
  next_le := Nat.le_refl _
  length_eq := List.length_replicate
  config_eq h := absurd (AnalyserRebuild.pending_eq_true_iff.mp h) (Nat.lt_irrefl _)
  fresh slot a _ h := by
    rw [List.eq_of_mem_replicate (List.mem_of_getElem? h)]
    exact ⟨rfl, rfl⟩

variable {b : AnalyserBank Settings Hop}

theorem exists_of_fresh (h : BankInv b) {slot : ℕ} (hfresh : b.rebuild.isFresh slot = true) :
    ∃ a, b.analysers[slot]? = some a ∧ a.BuiltFor b := by
  have hlt : slot < b.analysers.length := by
    rw [h.length_eq]
    exact Nat.lt_of_lt_of_le (AnalyserRebuild.isFresh_eq_true_iff.mp hfresh) h.next_le
  exact ⟨_, List.getElem?_eq_getElem hlt, h.fresh slot _ hfresh (List.getElem?_eq_getElem hlt)⟩

theorem of_called {b b' : AnalyserBank Settings Hop} (h : BankInv b)
    (hrebuild : b'.rebuild = b.rebuild) (hlatched : b'.latched = b.latched)
    (hsweeps : b'.sweeps = b.sweeps) (hlength : b'.analysers.length = b.analysers.length)
    (hcalled : ∀ slot : ℕ, ∃ cs : List (AnalyserCall Hop),
      b'.analysers[slot]? = b.analysers[slot]?.map (·.callAll cs)) :
    BankInv b' where
  slots_eq := hrebuild ▸ h.slots_eq
  next_le := hrebuild ▸ h.next_le
  length_eq := hlength.trans h.length_eq
  config_eq := by
    rw [hrebuild, hlatched]
    exact h.config_eq
  fresh slot a hfresh ha := by
    obtain ⟨cs, hcs⟩ := hcalled slot
    rw [ha] at hcs
    obtain ⟨a₀, ha₀, rfl⟩ := Option.map_eq_some_iff.mp hcs.symm
    have hbuilt := h.fresh slot a₀ (hrebuild ▸ hfresh) ha₀
    exact ⟨hbuilt.1.trans hlatched.symm, hbuilt.2.trans hsweeps.symm⟩

theorem begin (h : BankInv b) (config : AnalyserConfig Settings) :
    BankInv (b.begin config) where
  slots_eq := h.slots_eq
  next_le := Nat.zero_le _
  length_eq := h.length_eq
  config_eq _ := rfl
  fresh _ _ hfresh _ := absurd (AnalyserRebuild.isFresh_eq_true_iff.mp hfresh) (Nat.not_lt_zero _)

theorem getElem?_built (b : AnalyserBank Settings Hop) (slot : ℕ) :
    b.built.analysers[slot]? =
      if b.rebuild.next = slot then
        b.analysers[slot]?.map fun _ => { config := b.rebuild.config, sweep := b.sweeps }
      else b.analysers[slot]? := by
  rw [AnalyserBank.built, List.getElem?_set]
  split
  · rename_i hnext
    rw [hnext]
    split
    · rename_i hlt
      rw [List.getElem?_eq_getElem hlt]
      rfl
    · rename_i hge
      rw [List.getElem?_eq_none (Nat.not_lt.mp hge)]
      rfl
  · rfl

theorem built (h : BankInv b) (hpending : b.rebuild.pending = true) :
    BankInv b.built where
  slots_eq := h.slots_eq
  next_le := h.slots_eq ▸ AnalyserRebuild.pending_eq_true_iff.mp hpending
  length_eq := List.length_set.trans h.length_eq
  config_eq _ := h.config_eq hpending
  fresh slot a hfresh ha := by
    rw [getElem?_built] at ha
    split at ha
    · obtain ⟨-, -, rfl⟩ := Option.map_eq_some_iff.mp ha
      exact ⟨h.config_eq hpending, rfl⟩
    · rename_i hne
      have hlt : slot < b.rebuild.next + 1 := AnalyserRebuild.isFresh_eq_true_iff.mp hfresh
      exact h.fresh slot a (AnalyserRebuild.isFresh_eq_true_iff.mpr (by omega)) ha

theorem feed (h : BankInv b) (slot : ℕ) (c : AnalyserCall Hop) :
    BankInv (b.feed slot c) := by
  rw [AnalyserBank.feed]
  split
  · refine h.of_called rfl rfl rfl (List.length_modify _ _ _) fun i => ?_
    rw [getElem?_callSlot]
    split
    · exact ⟨[c], rfl⟩
    · exact ⟨[], by simp [Analyser.callAll_nil]⟩
  · exact h

theorem publish (h : BankInv b) (reads : List (ℕ × AnalyserCall Hop)) : BankInv (b.publish reads) :=
  h.of_called rfl rfl rfl (length_foldl_readSlot _ _) fun i =>
    ⟨callsOf reads i, getElem?_foldl_readSlot _ _ _⟩

end BankInv

/-! ### One step -/

theorem FreshOnly.of_eq {b b' : AnalyserBank Settings Hop} (hlatest : b'.latest = b.latest)
    (happlied : b'.appliedReferenceDelay = b.appliedReferenceDelay)
    (hanalysers : b'.analysers = b.analysers) : FreshOnly b b' where
  used slot a c cs ha hcalled := by
    rw [hanalysers, ha] at hcalled
    exact absurd (Option.some.inj hcalled) (a.callAll_cons_ne c cs)
  published snapshot h hne := absurd (hlatest ▸ h) hne
  applied h := absurd happlied h

namespace BankInv

variable {b : AnalyserBank Settings Hop}

theorem freshOnly_built (h : BankInv b)
    (hpending : b.rebuild.pending = true) : FreshOnly b b.built where
  used slot a c cs ha hcalled := by
    rw [getElem?_built, ha] at hcalled
    split at hcalled
    · have hcalls := congrArg (·.calls) (Option.some.inj hcalled)
      simp [Analyser.callAll] at hcalls
    · exact absurd (Option.some.inj hcalled) (a.callAll_cons_ne c cs)
  published snapshot hlatest hne := absurd hlatest hne
  applied happlied slot hslot := by
    have hlast : ¬ b.rebuild.next + 1 < b.rebuild.slots := by
      intro hlt
      exact happlied (if_pos hlt)
    have hfresh : b.built.rebuild.isFresh slot = true := by
      refine AnalyserRebuild.isFresh_eq_true_iff.mpr ?_
      show slot < b.rebuild.next + 1
      have := h.slots_eq
      omega
    obtain ⟨a, ha, hbuilt⟩ := (h.built hpending).exists_of_fresh hfresh
    refine ⟨a, ha, hbuilt, ?_⟩
    rw [hbuilt.1]
    show b.latched.referenceDelaySamples = if _ then _ else _
    rw [if_neg hlast, h.config_eq hpending]

theorem freshOnly_feed (h : BankInv b) (slot : ℕ)
    (c : AnalyserCall Hop) : FreshOnly b (b.feed slot c) := by
  rw [AnalyserBank.feed]
  split
  · rename_i hfresh
    refine ⟨fun i a c' cs ha hcalled => ?_, fun snapshot hlatest hne => absurd hlatest hne,
      fun happlied => absurd rfl happlied⟩
    rw [getElem?_callSlot, ha] at hcalled
    split at hcalled
    · rename_i hslot
      exact ⟨hslot ▸ hfresh, h.fresh i a (hslot ▸ hfresh) ha⟩
    · exact absurd (Option.some.inj hcalled) (a.callAll_cons_ne c' cs)
  · exact .of_eq rfl rfl rfl

theorem freshOnly_publish (h : BankInv b) {reads : List (ℕ × AnalyserCall Hop)}
    (hfresh : ∀ read ∈ reads, b.rebuild.isFresh read.1 = true) :
    FreshOnly b (b.publish reads) where
  used slot a c cs ha hcalled := by
    have hcalls : a.callAll (callsOf reads slot) = a.callAll (c :: cs) := by
      have hget := getElem?_foldl_readSlot reads slot (b.analysers, ⟨[]⟩)
      rw [ha] at hget
      exact Option.some.inj (hget.symm.trans hcalled)
    have hne : callsOf reads slot ≠ [] := by
      intro hnil
      rw [hnil, Analyser.callAll_nil] at hcalls
      exact a.callAll_cons_ne c cs hcalls
    obtain ⟨read, hread, rfl⟩ := exists_read_of_callsOf hne
    exact ⟨hfresh read hread, h.fresh _ a (hfresh read hread) ha⟩
  published snapshot hlatest _ part hpart := by
    obtain rfl := Option.some.inj hlatest
    rcases mem_parts_foldl_readSlot hpart with hnil | ⟨⟨read, hread, heq⟩, cs, hcs⟩
    · exact absurd hnil List.not_mem_nil
    · have hpartFresh : b.rebuild.isFresh part.1 = true := heq ▸ hfresh read hread
      obtain ⟨a, ha, hbuilt⟩ := h.exists_of_fresh hpartFresh
      refine ⟨hpartFresh, a.callAll cs, ?_, hbuilt.callAll cs⟩
      rw [hcs, ha]
      rfl
  applied happlied := absurd rfl happlied

/-- What one step does to a bank that meets the invariant. -/
theorem step {b b' : AnalyserBank Settings Hop} (h : BankInv b) (hstep : BankStep b b') :
    BankInv b' ∧ FreshOnly b b' := by
  cases hstep with
  | quiet => exact ⟨h, .of_eq rfl rfl rfl⟩
  | begin config => exact ⟨h.begin config, .of_eq rfl rfl rfl⟩
  | build hpending => exact ⟨h.built hpending, h.freshOnly_built hpending⟩
  | feed slot c => exact ⟨h.feed slot c, h.freshOnly_feed slot c⟩
  | publish reads hfresh => exact ⟨h.publish reads, h.freshOnly_publish hfresh⟩

end BankInv

/-! ### Every run -/

theorem analysisStep_build_some {s t : AnalysisRun Settings Hop} {e : BuildError}
    (h : analysisStep s (.build (some e)) = some t) : t.bank = s.bank := by
  simp only [analysisStep, AnalysisRun.tickWith] at h
  cases hpc : s.pc with
  | rebuilding =>
    simp only [hpc] at h
    split at h
    · rename_i hpending
      rw [← Option.some.inj h]
      exact AnalysisRun.stepRebuild_of_failure hpending e
    · cases h
  | _ =>
    simp only [hpc] at h
    cases h

/-- **Headline.** Whatever the order of epochs, delays, failed builds and ticks, an analyser is fed
or published from only if the most recent `begin` latched the configuration it was built from; a
snapshot is computed from fresh slots; the applied delay changes when every slot has been rebuilt
with it; and a failed build changes no analyser and no applied delay. -/
theorem rebuild_is_safe [Inhabited Settings] (config : AnalyserConfig Settings)
    {s : AnalysisRun Settings Hop} (hinit : (analysisThread config).init s)
    (acts : List (AnalysisAct Hop)) :
    (analysisThread config).AlongSteps RebuildIsSafe s acts := by
  obtain ⟨epoch, sampleRate, preparing, rfl⟩ := hinit
  refine Machine.AlongSteps.of_preserved (fun s => BankInv s.bank) ?_ (.construct config) acts
  intro s a t hs hstep
  obtain ⟨hinv, hfresh⟩ := hs.step (analysisStep_bank hstep)
  refine ⟨hinv, hfresh, ?_⟩
  rintro e rfl
  exact analysisStep_build_some hstep

/-- A tick that builds one analyser and then ends as given. -/
def buildTick (failure : Option BuildError) (rest : List (AnalysisAct ℕ)) :
    List (AnalysisAct ℕ) :=
  .step :: .step :: .step :: .step :: .build failure :: rest

/-- A tick that builds one analyser and reads no ring. -/
def gatedTick (failure : Option BuildError) : List (AnalysisAct ℕ) :=
  buildTick failure [.gate true, .publish 100 {}]

/-- A device change and an applied delay, a sweep whose third build fails, and a hop of one pair. -/
def retriedSweep : List (AnalysisAct ℕ) :=
  List.flatten
    [[.step, .step, .prepare 96000, .bumpEpoch, .applyReferenceDelay 5, .requestApply],
      [.step, .step, .step, .step, .step, .step, .step, .build none, .gate true, .publish 100 {}],
      gatedTick none, gatedTick (some .badAlloc), (List.replicate 5 (gatedTick none)).flatten,
      buildTick none
        [.gate false, .plan ⟨[⟨0, 0, 1⟩], [0], []⟩, .step, .hop 7 id, .step, .step, .drained, .step,
          .publish 200 ⟨[⟨0, 0, 1⟩], [0], []⟩]]

theorem rebuild_is_safe_retriedSweep :
    (((analysisThread { settings := () }).exec (.start { settings := () } 0 0 false)
      retriedSweep).map fun t => (t.bank.appliedReferenceDelay, t.bank.latest)) =
        some (5, some ⟨[(0, some ⟨⟨96000, 5, ()⟩, 2, [.publish, .pushPair 7 1]⟩),
          (0, some ⟨⟨96000, 5, ()⟩, 2, [.publish, .pushPair 7 1, .publish]⟩)]⟩) ∧
    (analysisThread { settings := () }).AlongSteps RebuildIsSafe
      (.start { settings := () } 0 0 false) retriedSweep :=
  ⟨by decide +kernel, rebuild_is_safe _ ⟨0, 0, false, rfl⟩ _⟩

end RtaTool
