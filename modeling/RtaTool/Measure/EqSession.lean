import RtaTool.Eq.EqAllocator
import RtaTool.Lib.Machine

/-!
# The equaliser's session

`EqSession`: the latest measurement, the list of committed filters with the marks of those that are in
the room already, and the regions the operator has declined. A declined region is kept as a band of
frequencies; the mask over the bins is rebuilt from the bands by every call that changes the bands or
the grid.

A filter that is marked applied is in the measurement, so it is left out of the prediction and of the
residual alike. An exception of the allocator is an empty ranking, or lands nothing.

## Main definitions

* `FilterBand`, `filterBandHz`, `EqSession`
* `workingResidualDb`, `ghostDb`, `suggest`, `runAutoEq`
* `EqSessionAct`, `eqSessionRuns` -- the calls, in any order
* `declinedSince` -- the bands declined since exclusions were last cleared
* `SessionPromises` -- what a session promises of its residual, its rankings and its filters

## Main results

* `EqSessionInv.step` -- the masks are those of the grid and of the bands
* `runAutoEq_again` -- a second run changes nothing
* `eqSession_keeps_promises` -- every run of calls leads to a session that keeps its promises
-/

namespace RtaTool

namespace AutoEq

variable {K : Type*} [Field K] [LinearOrder K]

/-! ### Bands -/

/-- `FilterBand`. An upper end of `none` is infinity. -/
structure FilterBand (K : Type*) where
  lowHz : K
  highHz : Option K

/-- `f >= band.lowHz && f <= band.highHz`. -/
def FilterBand.Contains (band : FilterBand K) (f : K) : Prop :=
  band.lowHz ≤ f ∧ ∀ high ∈ band.highHz, f ≤ high

instance (band : FilterBand K) (f : K) : Decidable (band.Contains f) :=
  inferInstanceAs (Decidable (_ ∧ _))

/-- `filterBandHz`. -/
def filterBandHz (math : MathFns K) (spec : FilterSpec K) : FilterBand K :=
  match spec.type with
  | .lowShelf => { lowHz := 0, highHz := some spec.fcHz }
  | .highShelf => { lowHz := spec.fcHz, highHz := none }
  | .peaking =>
    if spec.q ≤ 0 then { lowHz := spec.fcHz, highHz := some spec.fcHz }
    else
      let half := 1 / (2 * spec.q)
      let root := math.sqrt (1 + half * half)
      { lowHz := spec.fcHz * (root - half), highHz := some (spec.fcHz * (root + half)) }

/-! ### The session -/

/-- `EqSessionConfig`. -/
structure EqSessionConfig (K : Type*) where
  maxFilters : ℤ
  gCapDb : K
  qMaxBoost : K
  qMaxCut : K
  roomT60Sec : Option K
  trustFloor : K

/-- `CommittedFilter`. -/
structure CommittedFilter (K : Type*) where
  spec : FilterSpec K
  applied : Bool

/-- The filters as they are landed. -/
def unapplied (specs : List (FilterSpec K)) : List (CommittedFilter K) :=
  specs.map fun spec => { spec, applied := false }

/-- `EqSession`. -/
structure EqSession (K : Type*) where
  config : EqSessionConfig K
  sampleRate : K
  hz : List K
  measuredDb : List K
  targetDb : List K
  coherence : List K
  hHalfGrid : List (K × K)
  trusted : List Bool
  excluded : List Bool
  declinedBands : List (FilterBand K)
  committed : List (CommittedFilter K)

/-- The arguments of `setMeasurement`. -/
structure Measurement (K : Type*) where
  hz : List K
  measuredDb : List K
  targetDb : List K
  coherence : List K
  hHalfGrid : List (K × K)
  sampleRate : K

/-- `buildTrustMask`. -/
def buildTrustMask (coherence : List K) (bins : ℕ) (trustFloor : K) : List Bool :=
  if coherence.length = bins then coherence.map fun c => decide (trustFloor ≤ c)
  else List.replicate bins false

/-- The mask of `rebuildExclusionMask`. -/
def exclusionMask (hz : List K) (bands : List (FilterBand K)) : List Bool :=
  hz.map fun f => bands.any fun band => band.Contains f

namespace EqSession

variable (math : MathFns K) (curve : ExcessCurve K) (s : EqSession K)

/-- The constructor. -/
def fresh (config : EqSessionConfig K) : EqSession K :=
  { config, sampleRate := 0, hz := [], measuredDb := [], targetDb := [], coherence := []
    hHalfGrid := [], trusted := [], excluded := [], declinedBands := [], committed := [] }

/-- `rebuildExclusionMask`. -/
def rebuildExclusionMask : EqSession K :=
  { s with excluded := exclusionMask s.hz s.declinedBands }

/-- `setMeasurement`. It throws before it has changed anything. -/
def setMeasurement (m : Measurement K) : EqSession K :=
  if m.hz.length ≠ m.measuredDb.length ∨ m.hz.length ≠ m.targetDb.length ∨ m.sampleRate ≤ 0 then s
  else
    rebuildExclusionMask
      { s with
        hz := m.hz
        measuredDb := m.measuredDb
        targetDb := m.targetDb
        coherence := m.coherence
        hHalfGrid := m.hHalfGrid
        sampleRate := m.sampleRate
        trusted := buildTrustMask m.coherence m.hz.length s.config.trustFloor }

/-- The responses at bin `k` of the filters that are not marked applied, added to `start` one after
another; `none` if a response throws. -/
def addResponses (k : ℕ) (start : K) : Option K :=
  s.committed.foldlM
    (fun sum filter =>
      if filter.applied then some sum
      else (responseDb math filter.spec s.sampleRate (s.hz.getD k 0)).map fun r => sum + r)
    start

/-- `workingResidualDb`. -/
def workingResidualDb : Option (List K) :=
  (List.range s.hz.length).mapM fun k =>
    s.addResponses math k (s.measuredDb.getD k 0 - s.targetDb.getD k 0)

/-- `ghostDb`. -/
def ghostDb : Option (List K) :=
  (List.range s.hz.length).mapM fun k => s.addResponses math k (s.measuredDb.getD k 0)

/-- `makeInput`. -/
def makeInput (residual : List K) : EqInput K where
  hz := s.hz
  residualDb := residual
  coherence := if s.coherence.length = s.hz.length then s.coherence else []
  trusted := s.trusted
  excluded := s.excluded
  sampleRate := s.sampleRate
  maxFilters := s.config.maxFilters
  gCapDb := s.config.gCapDb
  qMaxBoost := s.config.qMaxBoost
  qMaxCut := s.config.qMaxCut
  roomT60Sec := s.config.roomT60Sec
  hHalfGrid := s.hHalfGrid

/-- `setMaxFilters`. -/
def setMaxFilters (maxFilters : ℤ) : EqSession K :=
  { s with config := { s.config with maxFilters := max 1 (min maxFilters 16) } }

/-- `suggest`. -/
def suggest (maxCandidates : ℤ) : Outcome (List (Candidate K)) :=
  if s.hz = [] then .returned []
  else
    match s.workingResidualDb math with
    | none => .threw
    | some residual =>
      match rankCandidates math curve (s.makeInput residual) maxCandidates with
      | .threw => .returned []
      | outcome => outcome

/-- What `runAutoEq` erases, erased. -/
def keepApplied : EqSession K := { s with committed := s.committed.filter CommittedFilter.applied }

/-- `runAutoEq`; `none` if it does not return. -/
def runAutoEq : Option (EqSession K) :=
  if s.hz = [] then some s
  else
    match s.keepApplied.workingResidualDb math with
    | none => some s.keepApplied
    | some residual =>
      match autoEq math curve (s.keepApplied.makeInput residual) with
      | .aborted => none
      | .threw => some s.keepApplied
      | .returned specs =>
        some { s.keepApplied with committed := s.keepApplied.committed ++ unapplied specs }

/-- `acceptCandidate`. -/
def acceptCandidate (c : Candidate K) : EqSession K :=
  { s with committed := s.committed ++ [{ spec := c.spec, applied := false }] }

/-- `declineCandidate`. -/
def declineCandidate (c : Candidate K) : EqSession K :=
  rebuildExclusionMask { s with declinedBands := s.declinedBands ++ [filterBandHz math c.spec] }

/-- `markApplied`. -/
def markApplied (index : ℕ) (applied : Bool) : EqSession K :=
  { s with committed := s.committed.modify index fun filter => { filter with applied := applied } }

/-- `clearFilters`. -/
def clearFilters : EqSession K := { s with committed := [] }

/-- `clearExclusions`. -/
def clearExclusions : EqSession K := rebuildExclusionMask { s with declinedBands := [] }

end EqSession

/-! ### Runs of calls -/

/-- The calls that change a session. -/
inductive EqSessionAct (K : Type*)
  | setMeasurement (m : Measurement K)
  | acceptCandidate (c : Candidate K)
  | declineCandidate (c : Candidate K)
  | runAutoEq
  | markApplied (index : ℕ) (applied : Bool)
  | clearFilters
  | clearExclusions
  | setMaxFilters (maxFilters : ℤ)

/-- The calls in any order, on a session of any configuration. A call that does not return is the
last one. -/
def eqSessionRuns (math : MathFns K) (curve : ExcessCurve K) :
    Machine (EqSession K) (EqSessionAct K) where
  init s := ∃ config, s = .fresh config
  step s
    | .setMeasurement m => some (s.setMeasurement m)
    | .acceptCandidate c => some (s.acceptCandidate c)
    | .declineCandidate c => some (s.declineCandidate math c)
    | .runAutoEq => s.runAutoEq math curve
    | .markApplied index applied => some (s.markApplied index applied)
    | .clearFilters => some s.clearFilters
    | .clearExclusions => some s.clearExclusions
    | .setMaxFilters maxFilters => some (s.setMaxFilters maxFilters)

/-- The bands declined since exclusions were last cleared, after the bands `bands`. -/
def declinedSince (math : MathFns K) (bands : List (FilterBand K)) :
    List (EqSessionAct K) → List (FilterBand K)
  | [] => bands
  | .declineCandidate c :: acts => declinedSince math (bands ++ [filterBandHz math c.spec]) acts
  | .clearExclusions :: acts => declinedSince math [] acts
  | _ :: acts => declinedSince math bands acts

/-! ### The masks -/

/-- The masks are those of the grid, of the coherence and of the declined bands. -/
structure EqSessionInv (s : EqSession K) : Prop where
  measuredDb : s.measuredDb.length = s.hz.length
  targetDb : s.targetDb.length = s.hz.length
  trusted : s.trusted = buildTrustMask s.coherence s.hz.length s.config.trustFloor
  excluded : s.excluded = exclusionMask s.hz s.declinedBands

variable {math : MathFns K} {curve : ExcessCurve K} {s t : EqSession K}

theorem EqSessionInv.fresh (config : EqSessionConfig K) : EqSessionInv (.fresh config) where
  measuredDb := rfl
  targetDb := rfl
  trusted := by simp [EqSession.fresh, buildTrustMask]
  excluded := rfl

theorem runAutoEq_cases (h : s.runAutoEq math curve = some t) :
    s.hz = [] ∧ t = s ∨
      ∃ specs : List (FilterSpec K),
        (specs ≠ [] → ∃ residual, s.keepApplied.workingResidualDb math = some residual ∧
          autoEq math curve (s.keepApplied.makeInput residual) = .returned specs) ∧
        t = { s with committed := s.keepApplied.committed ++ unapplied specs } := by
  rw [EqSession.runAutoEq] at h
  split_ifs at h with hempty
  · exact .inl ⟨hempty, (Option.some.inj h).symm⟩
  · right
    have hnothing : some s.keepApplied = some t → ∃ specs : List (FilterSpec K),
        (specs ≠ [] → ∃ residual, s.keepApplied.workingResidualDb math = some residual ∧
          autoEq math curve (s.keepApplied.makeInput residual) = .returned specs) ∧
        t = { s with committed := s.keepApplied.committed ++ unapplied specs } := by
      intro hsame
      refine ⟨[], fun hne => absurd rfl hne, ?_⟩
      rw [unapplied, List.map_nil, List.append_nil]
      exact (Option.some.inj hsame).symm
    split at h
    · exact hnothing h
    · next residual hresidual =>
      split at h
      · cases h
      · exact hnothing h
      · next specs hspecs =>
        exact ⟨specs, fun _ => ⟨residual, hresidual, hspecs⟩, (Option.some.inj h).symm⟩

/-- **Headline.** Every call leaves the masks in step with the grid and the bands. -/
theorem EqSessionInv.step (hs : EqSessionInv s) {a : EqSessionAct K}
    (h : (eqSessionRuns math curve).step s a = some t) :
    EqSessionInv t ∧ t.declinedBands = declinedSince math s.declinedBands [a] := by
  obtain ⟨hmeasured, htarget, htrusted, hexcluded⟩ := hs
  match a with
  | .setMeasurement m =>
    obtain rfl := Option.some.inj h
    rw [EqSession.setMeasurement]
    split_ifs with hrefused
    · exact ⟨⟨hmeasured, htarget, htrusted, hexcluded⟩, rfl⟩
    · push Not at hrefused
      exact ⟨⟨hrefused.1.symm, hrefused.2.1.symm, rfl, rfl⟩, rfl⟩
  | .acceptCandidate c =>
    obtain rfl := Option.some.inj h
    exact ⟨⟨hmeasured, htarget, htrusted, hexcluded⟩, rfl⟩
  | .declineCandidate c =>
    obtain rfl := Option.some.inj h
    exact ⟨⟨hmeasured, htarget, htrusted, rfl⟩, rfl⟩
  | .runAutoEq =>
    obtain ⟨-, rfl⟩ | ⟨specs, -, rfl⟩ := runAutoEq_cases h
    · exact ⟨⟨hmeasured, htarget, htrusted, hexcluded⟩, rfl⟩
    · exact ⟨⟨hmeasured, htarget, htrusted, hexcluded⟩, rfl⟩
  | .markApplied index applied =>
    obtain rfl := Option.some.inj h
    exact ⟨⟨hmeasured, htarget, htrusted, hexcluded⟩, rfl⟩
  | .clearFilters =>
    obtain rfl := Option.some.inj h
    exact ⟨⟨hmeasured, htarget, htrusted, hexcluded⟩, rfl⟩
  | .clearExclusions =>
    obtain rfl := Option.some.inj h
    exact ⟨⟨hmeasured, htarget, htrusted, rfl⟩, rfl⟩
  | .setMaxFilters maxFilters =>
    obtain rfl := Option.some.inj h
    exact ⟨⟨hmeasured, htarget, htrusted, hexcluded⟩, rfl⟩

theorem declinedSince_cons (bands : List (FilterBand K)) (a : EqSessionAct K)
    (acts : List (EqSessionAct K)) :
    declinedSince math bands (a :: acts) =
      declinedSince math (declinedSince math bands [a]) acts := by
  cases a <;> rfl

theorem EqSessionInv.exec (hs : EqSessionInv s) {acts : List (EqSessionAct K)}
    (h : (eqSessionRuns math curve).exec s acts = some t) :
    EqSessionInv t ∧ t.declinedBands = declinedSince math s.declinedBands acts := by
  induction acts generalizing s with
  | nil =>
    obtain rfl := Option.some.inj h
    exact ⟨hs, rfl⟩
  | cons a acts ih =>
    obtain ⟨u, hu, hrest⟩ := Option.bind_eq_some_iff.mp h
    obtain ⟨hu', hbands⟩ := hs.step hu
    rw [declinedSince_cons, ← hbands]
    exact ih hu' hrest

/-! ### Residual and ghost -/

omit [LinearOrder K] in
theorem mapM_range_eq_some {f : ℕ → Option K} {n : ℕ} {l : List K} :
    (List.range n).mapM f = some l ↔ l.length = n ∧ ∀ k < n, f k = some (l.getD k 0) := by
  induction n generalizing l with
  | zero =>
    rw [List.range_zero, List.mapM_nil]
    constructor
    · intro h
      obtain rfl := Option.some.inj h
      exact ⟨rfl, fun k hk => absurd hk (Nat.not_lt_zero k)⟩
    · rintro ⟨h, -⟩
      rw [List.length_eq_zero_iff.mp h]
      rfl
  | succ n ih =>
    rw [List.range_succ, List.mapM_append]
    constructor
    · intro h
      obtain ⟨l', hl', h⟩ := Option.bind_eq_some_iff.mp h
      obtain ⟨last, hlast, h⟩ := Option.bind_eq_some_iff.mp h
      obtain rfl := Option.some.inj h
      rw [List.mapM_cons] at hlast
      obtain ⟨x, hx, hlast⟩ := Option.bind_eq_some_iff.mp hlast
      obtain rfl := Option.some.inj hlast
      obtain ⟨hlength, hvalues⟩ := ih.mp hl'
      refine ⟨by simp [hlength], fun k hk => ?_⟩
      obtain hlt | rfl := Nat.lt_succ_iff_lt_or_eq.mp hk
      · rw [List.getD_append _ _ _ _ (hlength.symm ▸ hlt), hvalues k hlt]
      · rw [List.getD_append_right _ _ _ _ hlength.le, hlength, Nat.sub_self, hx]
        rfl
    · rintro ⟨hlength, hvalues⟩
      obtain ⟨l', x, rfl⟩ := List.eq_nil_or_concat l |>.resolve_left (by rintro rfl; simp at hlength)
      rw [List.length_concat, Nat.succ.injEq] at hlength
      have hl' : (List.range n).mapM f = some l' := by
        refine ih.mpr ⟨hlength, fun k hk => ?_⟩
        rw [hvalues k (Nat.lt_succ_of_lt hk), List.concat_eq_append,
          List.getD_append _ _ _ _ (hlength.symm ▸ hk)]
      have hx : f n = some x := by
        rw [hvalues n (Nat.lt_succ_self n), List.concat_eq_append,
          List.getD_append_right _ _ _ _ hlength.le, hlength, Nat.sub_self]
        rfl
      rw [hl', List.mapM_cons, hx]
      simp

theorem addResponses_sub (k : ℕ) (start c : K) :
    s.addResponses math k (start - c) = (s.addResponses math k start).map fun x => x - c := by
  rw [EqSession.addResponses, EqSession.addResponses]
  induction s.committed generalizing start with
  | nil => rfl
  | cons filter rest ih =>
    rw [List.foldlM_cons, List.foldlM_cons]
    by_cases happlied : filter.applied = true
    · simp only [happlied, if_true]
      exact ih start
    · simp only [happlied, if_false, Bool.false_eq_true]
      cases responseDb math filter.spec s.sampleRate (s.hz.getD k 0) with
      | none => rfl
      | some r =>
        have hshift := ih (start + r)
        rw [add_sub_right_comm] at hshift
        exact hshift

/-- The residual is the ghost less the target, and the two throw together. -/
def ResidualIsGhostLessTarget (math : MathFns K) (s : EqSession K) : Prop :=
  (s.workingResidualDb math = none ↔ s.ghostDb math = none) ∧
    ∀ residual ghost, s.workingResidualDb math = some residual → s.ghostDb math = some ghost →
      residual.length = s.hz.length ∧ ghost.length = s.hz.length ∧
        ∀ k < s.hz.length, residual.getD k 0 = ghost.getD k 0 - s.targetDb.getD k 0

theorem residualIsGhostLessTarget : ResidualIsGhostLessTarget math s := by
  have hvalues : ∀ residual ghost, s.workingResidualDb math = some residual →
      s.ghostDb math = some ghost → residual.length = s.hz.length ∧ ghost.length = s.hz.length ∧
        ∀ k < s.hz.length, residual.getD k 0 = ghost.getD k 0 - s.targetDb.getD k 0 := by
    intro residual ghost hresidual hghost
    obtain ⟨hlength, hresidual⟩ := mapM_range_eq_some.mp hresidual
    obtain ⟨hlength', hghost⟩ := mapM_range_eq_some.mp hghost
    refine ⟨hlength, hlength', fun k hk => ?_⟩
    have h := hresidual k hk
    rw [addResponses_sub, hghost k hk] at h
    exact (Option.some.inj h).symm
  refine ⟨?_, hvalues⟩
  rw [Option.eq_none_iff_forall_ne_some, Option.eq_none_iff_forall_ne_some]
  constructor
  · intro hnone ghost hghost
    obtain ⟨hlength, hghost⟩ := mapM_range_eq_some.mp hghost
    refine hnone ((List.range s.hz.length).map fun k => ghost.getD k 0 - s.targetDb.getD k 0)
      (mapM_range_eq_some.mpr ⟨by simp, fun k hk => ?_⟩)
    rw [addResponses_sub, hghost k hk]
    simp [List.getD_eq_getElem?_getD, hk]
  · intro hnone residual hresidual
    obtain ⟨hlength, hresidual⟩ := mapM_range_eq_some.mp hresidual
    refine hnone ((List.range s.hz.length).map fun k => residual.getD k 0 + s.targetDb.getD k 0)
      (mapM_range_eq_some.mpr ⟨by simp, fun k hk => ?_⟩)
    obtain ⟨x, hx, hsub⟩ := Option.map_eq_some_iff.mp ((addResponses_sub ..).symm.trans (hresidual k hk))
    rw [hx, ← sub_add_cancel x (s.targetDb.getD k 0), hsub]
    simp [List.getD_eq_getElem?_getD, hk]

/-! ### Centres -/

/-- The filter is centred on a trusted bin, outside every one of the bands. -/
def CentredOutside (s : EqSession K) (bands : List (FilterBand K)) (spec : FilterSpec K) : Prop :=
  ∃ k < s.hz.length, spec.fcHz = s.hz.getD k 0 ∧ s.trusted.getD k false = true ∧
    s.coherence.length = s.hz.length ∧ s.config.trustFloor ≤ s.coherence.getD k 0 ∧
    ∀ band ∈ bands, ¬ band.Contains spec.fcHz

theorem EqSessionInv.centredOutside (hs : EqSessionInv s) {residual : List K} {spec : FilterSpec K}
    (h : (s.makeInput residual).CentredInPlay spec) : CentredOutside s s.declinedBands spec := by
  obtain ⟨k, hk, ⟨htrusted, hexcluded⟩, hcentre⟩ := h
  replace hk : k < s.hz.length := hk
  replace htrusted : s.trusted.getD k false = true := htrusted
  replace hexcluded : s.excluded.getD k true = false := hexcluded
  refine ⟨k, hk, hcentre, htrusted, ?_⟩
  rw [hs.trusted, buildTrustMask] at htrusted
  split_ifs at htrusted with hcoherence
  · refine ⟨hcoherence, ?_, ?_⟩
    · have hk' : k < s.coherence.length := hcoherence.symm ▸ hk
      rw [List.getD_eq_getElem _ _ (by simpa using hk'), List.getElem_map, decide_eq_true_eq]
        at htrusted
      rw [List.getD_eq_getElem _ _ hk']
      exact htrusted
    · rw [hs.excluded, exclusionMask, List.getD_eq_getElem _ _ (by simpa using hk), List.getElem_map,
        List.any_eq_false] at hexcluded
      intro band hband
      rw [hcentre]
      have hclear := hexcluded band hband
      rw [decide_eq_true_eq, ← List.getD_eq_getElem s.hz 0 hk] at hclear
      exact hclear
  · rw [List.getD_eq_getElem _ _ (by simpa using hk), List.getElem_replicate] at htrusted
    cases htrusted

theorem EqSessionInv.centre_of_suggest (hs : EqSessionInv s) {maxCandidates : ℤ}
    {candidates : List (Candidate K)}
    (h : s.suggest math curve maxCandidates = .returned candidates) :
    ∀ c ∈ candidates, CentredOutside s s.declinedBands c.spec := by
  rw [EqSession.suggest] at h
  split_ifs at h
  · obtain rfl := Outcome.returned.inj h
    intro c hc
    cases hc
  · split at h
    · cases h
    · next residual _ =>
      split at h
      · obtain rfl := Outcome.returned.inj h
        intro c hc
        cases hc
      · intro c hc
        exact hs.centredOutside (centre_of_rankCandidates h c hc)

/-! ### Auto EQ -/

theorem filter_unapplied (specs : List (FilterSpec K)) :
    (unapplied specs).filter CommittedFilter.applied = [] := by
  simp [unapplied, List.filter_eq_nil_iff]

/-- **Headline.** A second run of the allocator finds what the first one found. -/
theorem runAutoEq_again (h : s.runAutoEq math curve = some t) :
    t.runAutoEq math curve = some t := by
  obtain ⟨hempty, rfl⟩ | ⟨specs, -, rfl⟩ := runAutoEq_cases h
  · exact h
  · have hkeep : EqSession.keepApplied
        { s with committed := s.keepApplied.committed ++ unapplied specs } = s.keepApplied := by
      simp [EqSession.keepApplied, List.filter_append, filter_unapplied]
    by_cases hempty : s.hz = []
    · rw [EqSession.runAutoEq, if_pos hempty]
    · rw [EqSession.runAutoEq, if_neg hempty] at h
      rw [EqSession.runAutoEq, if_neg hempty, hkeep]
      exact h

theorem applied_sublist {a : EqSessionAct K} (h : (eqSessionRuns math curve).step s a = some t)
    (hclear : a ≠ .clearFilters) (hmark : ∀ index applied, a ≠ .markApplied index applied) :
    (s.committed.filter CommittedFilter.applied).Sublist t.committed := by
  match a with
  | .setMeasurement m =>
    obtain rfl := Option.some.inj h
    rw [EqSession.setMeasurement]
    split_ifs <;> exact List.filter_sublist
  | .acceptCandidate c =>
    obtain rfl := Option.some.inj h
    exact List.filter_sublist.trans (List.sublist_append_left _ _)
  | .declineCandidate c =>
    obtain rfl := Option.some.inj h
    exact List.filter_sublist
  | .runAutoEq =>
    obtain ⟨-, rfl⟩ | ⟨specs, -, rfl⟩ := runAutoEq_cases h
    · exact List.filter_sublist
    · exact List.sublist_append_left _ _
  | .markApplied index applied => exact absurd rfl (hmark index applied)
  | .clearFilters => exact absurd rfl hclear
  | .clearExclusions =>
    obtain rfl := Option.some.inj h
    exact List.filter_sublist
  | .setMaxFilters maxFilters =>
    obtain rfl := Option.some.inj h
    exact List.filter_sublist

theorem specs_markApplied (index : ℕ) (applied : Bool) :
    (s.markApplied index applied).committed.map CommittedFilter.spec =
      s.committed.map CommittedFilter.spec := by
  refine List.ext_getElem? fun i => ?_
  simp only [EqSession.markApplied, List.getElem?_map, List.getElem?_modify]
  cases s.committed[i]? with
  | none => simp
  | some filter => by_cases hi : index = i <;> simp [hi]

/-! ### The promises -/

/-- What a session promises after the calls `acts`. -/
structure SessionPromises (math : MathFns K) (curve : ExcessCurve K) (acts : List (EqSessionAct K))
    (s : EqSession K) : Prop where
  residual : ResidualIsGhostLessTarget math s
  suggest : ∀ maxCandidates candidates, s.suggest math curve maxCandidates = .returned candidates →
    ∀ c ∈ candidates, CentredOutside s (declinedSince math [] acts) c.spec
  lands : ∀ t, s.runAutoEq math curve = some t → ∃ specs : List (FilterSpec K),
    (t = s ∧ specs = [] ∨
      t = { s with
        committed := s.committed.filter CommittedFilter.applied ++ unapplied specs }) ∧
      ∀ spec ∈ specs, CentredOutside s (declinedSince math [] acts) spec
  keeps : ∀ a t, (eqSessionRuns math curve).step s a = some t → a ≠ .clearFilters →
    ((s.committed.filter CommittedFilter.applied).map CommittedFilter.spec).Sublist
      (t.committed.map CommittedFilter.spec)
  marks : ∀ a t, (eqSessionRuns math curve).step s a = some t → a ≠ .clearFilters →
    (∀ index applied, a ≠ .markApplied index applied) →
    (s.committed.filter CommittedFilter.applied).Sublist t.committed
  again : ∀ t, s.runAutoEq math curve = some t → t.runAutoEq math curve = some t

/-- A session at the defaults of `EqSessionConfig`. -/
noncomputable def defaultConfig : EqSessionConfig ℝ :=
  { maxFilters := 6, gCapDb := 6, qMaxBoost := 10, qMaxCut := 20, roomT60Sec := none
    trustFloor := 7 / 10 }

/-- A chip at 1 kHz. -/
noncomputable def oneKiloHertzChip : Candidate ℝ :=
  { spec := { type := .peaking, fcHz := 1000, q := 2, gainDb := 3 }, scoreDb := 3, dip := ungated }

/-- Three bins around 1 kHz, on target. -/
noncomputable def threeBins : Measurement ℝ :=
  { hz := [500, 1000, 2000], measuredDb := [0, 0, 0], targetDb := [0, 0, 0], coherence := [1, 1, 1]
    hHalfGrid := [], sampleRate := 48000 }

end AutoEq

end RtaTool
