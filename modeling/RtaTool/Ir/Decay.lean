import RtaTool.Ir.DecayLundeby

/-!
# Decay curves, decay times and clarity

`Decay.cpp`. The squared response is integrated backwards from the crossing, with the energy beyond
it added; lines fitted to the curve give the decay times; clarity and definition are ratios of the
energy before and after 50 and 80 milliseconds. What a measurement cannot support is refused, with
the reason.

A response that is silent up to 50 milliseconds after its origin has no early energy. Its definition
is reported, and is zero.

## Main definitions

* `EnergyDecayCurve`, `energyDecayCurve`
* `decayTimes`, `clarity`
* `earlySamples` -- what the early energy is the energy of

## Main results

* `energyDecayCurve_has` -- where there is a curve, it is the integrated one at a crossing
* `integrated_db_head`, `integrated_db_pairwise`, `truncationEnergy_pos` -- what that one is like
* `fitOne_pos` -- a decay time is positive
* `clarity_eq` -- clarity is a ratio of energies, or refused
* `decay_facts` -- **Headline.** All of it together
* `clarity_lateArrival` -- a response whose definition is zero
-/

namespace RtaTool

namespace Ir

/-- `DecayRefusal`. -/
inductive DecayRefusal
  | none
  | bandwidthTimeTooSmall
  | noDecayFound
  | rangeTooSmall
  | noNoiseEstimate
  | noLeadIn
  deriving DecidableEq

variable {K : Type*} [Field K] [LinearOrder K] [FloorSemiring K]

/-- `EnergyDecayCurve`. -/
structure EnergyDecayCurve (K : Type*) [Field K] where
  db : List K := []
  sampleRate : K := 0
  crossingIndex : ℕ := 0
  truncationCorrection : K := 0
  lateDecaySec : K := 0
  refusal : DecayRefusal := .noDecayFound

/-- `DecayTime`. -/
structure DecayTime (K : Type*) [Field K] where
  seconds : K := 0
  refusal : DecayRefusal := .noDecayFound

/-- `DecayTimes`. -/
structure DecayTimes (K : Type*) [Field K] where
  edt : DecayTime K
  t20 : DecayTime K
  t30 : DecayTime K

/-! ### Decay times -/

/-- `firstAtOrBelow`. -/
def firstAtOrBelow (db : List K) (level : K) : Option ℕ := db.findIdx? fun v => v ≤ level

/-- `fitOne`. -/
def fitOne (curve : EnergyDecayCurve K) (upperDb lowerDb : K) : DecayTime K :=
  if curve.refusal ≠ .none then { refusal := curve.refusal }
  else
    match firstAtOrBelow curve.db upperDb, firstAtOrBelow curve.db lowerDb with
    | some i0, some i1 =>
      if i1 ≤ i0 + 8 then { refusal := .rangeTooSmall }
      else
        let x := (List.range' i0 (i1 - i0)).map fun i : ℕ => (i : K) / curve.sampleRate
        let y := (List.range' i0 (i1 - i0)).map fun i => curve.db.getD i 0
        match leastSquares x y with
        | none => { refusal := .noDecayFound }
        | some (slope, _) =>
          if 0 ≤ slope then { refusal := .noDecayFound }
          else { seconds := -60 / slope, refusal := .none }
    | _, _ => { refusal := .rangeTooSmall }

/-- `decayTimes`. -/
def decayTimes (curve : EnergyDecayCurve K) : DecayTimes K :=
  { edt := fitOne curve 0 (-10)
    t20 := fitOne curve (-5) (-25)
    t30 := fitOne curve (-5) (-35) }

/-! ### The curve -/

variable (logs : LogFns K) (cfg : DecayConfig K)

/-- The squares of the samples. -/
def squares (x : List K) : List K := x.map fun v => v * v

/-- The sums from each place to the end. -/
def backwardSums : List K → List K
  | [] => []
  | x :: xs =>
    let rest := backwardSums xs
    (rest.headD 0 + x) :: rest

/-- The energy beyond the crossing, of a decay that goes on as one exponential. -/
def truncationEnergy (crossing : Crossing K) : K :=
  let tauSamples := 10 / (crossing.slopeDbPerSample * logs.log 10)
  let crossingPower :=
    logs.pow10 ((crossing.interceptDb - crossing.slopeDbPerSample * crossing.index) / 10)
  crossingPower * tauSamples

/-- The curve up to the crossing, before the gate. -/
def integrated (sampleRate : K) (squared : List K) (crossing : Crossing K) : EnergyDecayCurve K :=
  let correction := truncationEnergy logs crossing
  let integral := (backwardSums (squared.take crossing.index)).map fun v => v + correction
  let ref := integral.getD 0 0
  { db := integral.map fun v => powerToDb logs (v / ref)
    sampleRate := sampleRate
    crossingIndex := crossing.index
    truncationCorrection := correction
    refusal := .none }

/-- The gate, on the decay that is reported. -/
def gated (bandwidthHz : K) (curve : EnergyDecayCurve K) : EnergyDecayCurve K :=
  let t30 := fitOne curve (-5) (-35)
  let t20 := fitOne curve (-5) (-25)
  let lateDecaySec :=
    if t30.refusal = .none then t30.seconds
    else if t20.refusal = .none then t20.seconds
    else curve.lateDecaySec
  if 0 < bandwidthHz ∧ 0 < lateDecaySec ∧ bandwidthHz * lateDecaySec < cfg.minBandwidthTime then
    { curve with lateDecaySec := lateDecaySec, refusal := .bandwidthTimeTooSmall, db := [] }
  else { curve with lateDecaySec := lateDecaySec }

/-- `energyDecayCurve`. -/
def energyDecayCurve (bandResponse : List K) (originIndex : ℕ) (sampleRate bandwidthHz : K) :
    EnergyDecayCurve K :=
  if ¬0 < sampleRate ∨ bandResponse.length = 0 ∨ bandResponse.length ≤ originIndex then
    { sampleRate := sampleRate, refusal := .noDecayFound }
  else
    let squared := squares (bandResponse.drop originIndex)
    match findCrossing logs cfg squared sampleRate with
    | none => { sampleRate := sampleRate, refusal := .noNoiseEstimate }
    | some crossing =>
      let integral := backwardSums (squared.take crossing.index)
      if integral.length = 0 ∨ integral.getD 0 0 ≤ 0 then
        { sampleRate := sampleRate, refusal := .noDecayFound }
      else gated cfg bandwidthHz (integrated logs sampleRate squared crossing)

/-! ### Clarity -/

/-- `DecayValue`. -/
structure DecayValue (K : Type*) [Field K] where
  value : K := 0
  refusal : DecayRefusal := .noDecayFound

/-- `Clarity`. -/
structure Clarity (K : Type*) [Field K] where
  c50Db : DecayValue K := {}
  c80Db : DecayValue K := {}
  d50 : DecayValue K := {}

/-- `refuseAll`. -/
def refuseAll (why : DecayRefusal) : Clarity K :=
  { c50Db := { refusal := why }, c80Db := { refusal := why }, d50 := { refusal := why } }

/-- A figure, where its late half is there. -/
def DecayValue.ofLate (late : Prop) [Decidable late] (value : K) : DecayValue K :=
  if late then { value := value, refusal := .none } else { refusal := .rangeTooSmall }

/-- `leadInSamplesFor`; `std::llround` of a positive number. -/
def leadInSamplesFor (sampleRate lowBandEdgeHz : K) : Except String ℕ :=
  if ¬0 < sampleRate then .error "leadInSamplesFor: sampleRate must be positive"
  else if ¬0 < lowBandEdgeHz then .error "leadInSamplesFor: lowBandEdgeHz must be positive"
  else .ok ⌊2 * sampleRate / lowBandEdgeHz + 1 / 2⌋₊

/-- The three figures, from the energies. -/
def clarityOf (early50 early80 total : K) (reaches80 : Bool) : Clarity K :=
  let late50 := total - early50
  let late80 := total - early80
  { c50Db := .ofLate (0 < late50) (powerToDb logs (early50 / late50))
    d50 := .ofLate (0 < late50) (early50 / total)
    c80Db := .ofLate (reaches80 ∧ 0 < late80) (powerToDb logs (early80 / late80)) }

/-- `clarity`. -/
def clarity (bandResponse : List K) (originIndex : ℕ) (sampleRate lowBandEdgeHz : K)
    (curve : EnergyDecayCurve K) : Except String (Clarity K) :=
  if ¬0 < sampleRate ∨ ¬0 < lowBandEdgeHz ∨ bandResponse.length = 0 ∨
      bandResponse.length ≤ originIndex then .ok {}
  else if curve.refusal ≠ .none then .ok (refuseAll curve.refusal)
  else
    let tail := bandResponse.drop originIndex
    let cut := min curve.crossingIndex tail.length
    let at50 := ⌊1 / 20 * sampleRate⌋₊
    let at80 := ⌊2 / 25 * sampleRate⌋₊
    if cut ≤ at50 then .ok (refuseAll .rangeTooSmall)
    else
      match leadInSamplesFor sampleRate lowBandEdgeHz with
      | .error e => .error e
      | .ok leadIn =>
        let preRing := min leadIn originIndex
        let before := (squares ((bandResponse.drop (originIndex - preRing)).take preRing)).sum
        let energies := squares (tail.take cut)
        let early50 := before + (energies.take at50).sum
        let early80 := before + (energies.take at80).sum
        let total := before + energies.sum
        if ¬0 < total then .ok (refuseAll .noDecayFound)
        else
          .ok (clarityOf logs early50 early80 (total + curve.truncationCorrection) (at80 < cut))

/-- The samples whose energy is early: the ring before the origin and 50 milliseconds from it. -/
def earlySamples (bandResponse : List K) (originIndex : ℕ) (sampleRate lowBandEdgeHz : K) :
    List K :=
  let preRing := min ⌊2 * sampleRate / lowBandEdgeHz + 1 / 2⌋₊ originIndex
  (bandResponse.drop (originIndex - preRing)).take (preRing + ⌊1 / 20 * sampleRate⌋₊)

/-! ### Decibels of the real numbers -/

theorem kTiny_pos : (0 : ℝ) < kTiny := by
  rw [kTiny]
  positivity

theorem powerToDb_mono {p q : ℝ} (h : p ≤ q) : powerToDb realLogs p ≤ powerToDb realLogs q := by
  have hpos : 0 < max p kTiny := lt_max_of_lt_right kTiny_pos
  have hlog : Real.logb 10 (max p kTiny) ≤ Real.logb 10 (max q kTiny) :=
    Real.logb_le_logb_of_le (by norm_num) hpos (max_le_max_right _ h)
  exact mul_le_mul_of_nonneg_left hlog (by norm_num)

theorem powerToDb_one : powerToDb realLogs (1 : ℝ) = 0 := by
  have hmax : max 1 (kTiny : ℝ) = 1 := by
    refine max_eq_left ?_
    rw [kTiny]
    exact div_le_one_of_le₀ (one_le_pow₀ one_le_two) (by positivity)
  rw [powerToDb, hmax]
  simp [realLogs]

theorem powerToDb_pow {k : ℕ} (hk : k ≤ 255) : powerToDb realLogs (1 / 10 ^ k : ℝ) = -10 * k := by
  have htiny : (kTiny : ℝ) ≤ 1 / 10 ^ k := by
    rw [kTiny]
    refine one_div_le_one_div_of_le (by positivity) ?_
    calc (10 : ℝ) ^ k ≤ (2 ^ 4) ^ k := pow_le_pow_left₀ (by norm_num) (by norm_num) k
      _ = 2 ^ (4 * k) := (pow_mul 2 4 k).symm
      _ ≤ 2 ^ 1022 := pow_le_pow_right₀ one_le_two (by omega)
  have hlog : Real.logb 10 (1 / 10 ^ k : ℝ) = -k := by
    rw [one_div, Real.logb_inv, Real.logb_pow, Real.logb_self_eq_one (by norm_num), mul_one]
  rw [powerToDb, max_eq_left htiny, show realLogs.log10 = Real.logb 10 from rfl, hlog]
  ring

/-! ### Backward sums -/

theorem headD_backwardSums (xs : List ℝ) : (backwardSums xs).headD 0 = xs.sum := by
  induction xs with
  | nil => rfl
  | cons x xs ih =>
    rw [backwardSums, List.sum_cons, ← ih, add_comm]
    rfl

@[simp] theorem length_backwardSums (xs : List ℝ) : (backwardSums xs).length = xs.length := by
  induction xs with
  | nil => rfl
  | cons x xs ih => rw [backwardSums, List.length_cons, List.length_cons, ih]

/-- Each sum is over the rest of the response, and they fall. -/
theorem backwardSums_pairwise {xs : List ℝ} (h : ∀ x ∈ xs, 0 ≤ x) :
    (backwardSums xs).Pairwise (fun a b => b ≤ a) ∧ ∀ v ∈ backwardSums xs, v ≤ xs.sum := by
  induction xs with
  | nil => exact ⟨List.Pairwise.nil, fun _ hv => by cases hv⟩
  | cons x xs ih =>
    obtain ⟨hx, hxs⟩ := List.forall_mem_cons.mp h
    obtain ⟨hpairwise, hle⟩ := ih hxs
    have hhead : (backwardSums xs).headD 0 + x = (x :: xs).sum := by
      rw [headD_backwardSums, List.sum_cons, add_comm]
    have hrest : ∀ v ∈ backwardSums xs, v ≤ (x :: xs).sum := by
      intro v hv
      rw [List.sum_cons]
      exact (hle v hv).trans (le_add_of_nonneg_left hx)
    rw [backwardSums, hhead]
    exact ⟨List.pairwise_cons.mpr ⟨hrest, hpairwise⟩, List.forall_mem_cons.mpr ⟨le_rfl, hrest⟩⟩

theorem squares_nonneg (x : List ℝ) : ∀ v ∈ squares x, 0 ≤ v := by
  intro v hv
  obtain ⟨w, -, rfl⟩ := List.mem_map.mp hv
  exact mul_self_nonneg w

theorem sum_squares_nonneg (x : List ℝ) : 0 ≤ (squares x).sum := List.sum_nonneg (squares_nonneg x)

theorem sum_squares_eq_zero {x : List ℝ} : (squares x).sum = 0 ↔ ∀ v ∈ x, v = 0 := by
  induction x with
  | nil => simp [squares]
  | cons v x ih =>
    have hcons : (squares (v :: x)).sum = v * v + (squares x).sum := List.sum_cons
    rw [hcons, List.forall_mem_cons, ← ih,
      add_eq_zero_iff_of_nonneg (mul_self_nonneg v) (sum_squares_nonneg x), mul_self_eq_zero]

/-! ### The integrated curve -/

/-- The energy beyond the crossing of a falling line is positive. -/
theorem truncationEnergy_pos {crossing : Crossing ℝ} (h : 0 < crossing.slopeDbPerSample) :
    0 < truncationEnergy realLogs crossing := by
  have hlog : 0 < Real.log 10 := Real.log_pos (by norm_num)
  simp only [truncationEnergy, realLogs]
  positivity

variable {sampleRate : ℝ} {squared : List ℝ} {crossing : Crossing ℝ}

theorem integrated_db_length (hindex : crossing.index ≤ squared.length) :
    (integrated realLogs sampleRate squared crossing).db.length = crossing.index := by
  simpa [integrated] using hindex

/-- The curve starts at no decibel. -/
theorem integrated_db_head (hindex : crossing.index ≤ squared.length) (hpos : 0 < crossing.index)
    (hsum : 0 < (squared.take crossing.index).sum + truncationEnergy realLogs crossing) :
    (integrated realLogs sampleRate squared crossing).db.head? = some 0 := by
  obtain ⟨v, rest, hcons⟩ : ∃ v rest, backwardSums (squared.take crossing.index) = v :: rest := by
    refine List.exists_cons_of_length_pos ?_
    rw [length_backwardSums, List.length_take]
    omega
  have hv : v = (squared.take crossing.index).sum := by
    rw [← headD_backwardSums, hcons]
    rfl
  simp only [integrated, hcons, List.map_cons, List.head?_cons, List.getD_cons_zero]
  rw [hv, div_self hsum.ne', powerToDb_one]

/-- The curve never rises. -/
theorem integrated_db_pairwise (hsquared : ∀ v ∈ squared, 0 ≤ v)
    (hsum : 0 < (squared.take crossing.index).sum + truncationEnergy realLogs crossing) :
    (integrated realLogs sampleRate squared crossing).db.Pairwise fun a b => b ≤ a := by
  obtain ⟨hpairwise, -⟩ := backwardSums_pairwise fun v hv =>
    hsquared v (List.mem_of_mem_take hv : v ∈ squared)
  have href : 0 ≤ ((backwardSums (squared.take crossing.index)).map fun v =>
      v + truncationEnergy realLogs crossing).getD 0 0 := by
    rcases hcons : backwardSums (squared.take crossing.index) with _ | ⟨v, rest⟩
    · rfl
    · have hv : v = (squared.take crossing.index).sum := by
        rw [← headD_backwardSums, hcons]
        rfl
      rw [List.map_cons, List.getD_cons_zero, hv]
      exact hsum.le
  simp only [integrated, List.map_map]
  refine hpairwise.map _ fun a b hab => powerToDb_mono ?_
  exact div_le_div_of_nonneg_right (add_le_add_left hab _) href

/-! ### What there is a curve of -/

variable {curve : EnergyDecayCurve ℝ} {early50 early80 total : ℝ}

theorem gated_has {bandwidthHz : ℝ} {cfg : DecayConfig ℝ}
    (h : (gated cfg bandwidthHz curve).refusal = .none) :
    (gated cfg bandwidthHz curve).db = curve.db ∧
      (gated cfg bandwidthHz curve).crossingIndex = curve.crossingIndex ∧
      (gated cfg bandwidthHz curve).truncationCorrection = curve.truncationCorrection := by
  rw [gated] at h ⊢
  split_ifs at h ⊢ <;> exact ⟨rfl, rfl, rfl⟩

/-- Where there is a curve, it is the integrated one at the crossing that was found. -/
theorem energyDecayCurve_has {cfg : DecayConfig ℝ} {bandResponse : List ℝ} {originIndex : ℕ}
    {sampleRate bandwidthHz : ℝ}
    (h : (energyDecayCurve realLogs cfg bandResponse originIndex sampleRate bandwidthHz).refusal =
      .none) :
    ∃ crossing, findCrossing realLogs cfg (squares (bandResponse.drop originIndex)) sampleRate =
        some crossing ∧
      energyDecayCurve realLogs cfg bandResponse originIndex sampleRate bandwidthHz =
        gated cfg bandwidthHz
          (integrated realLogs sampleRate (squares (bandResponse.drop originIndex)) crossing) := by
  rw [energyDecayCurve] at h ⊢
  split_ifs at h ⊢ with hbad
  dsimp only at h ⊢
  rcases hfind : findCrossing realLogs cfg (squares (bandResponse.drop originIndex)) sampleRate
    with _ | crossing
  · rw [hfind] at h
    cases h
  · rw [hfind] at h
    dsimp only at h
    split_ifs at h with hempty
    exact ⟨crossing, rfl, if_neg hempty⟩

/-- A decay time that is reported is positive. -/
theorem fitOne_pos {upperDb lowerDb : ℝ} (h : (fitOne curve upperDb lowerDb).refusal = .none) :
    0 < (fitOne curve upperDb lowerDb).seconds := by
  rw [fitOne] at h ⊢
  split_ifs at h ⊢ with hcurve
  · exact absurd h hcurve
  · split at h
    · split_ifs at h with hshort
      rw [if_neg hshort]
      dsimp only at h ⊢
      split at h
      · cases h
      · split_ifs at h ⊢ with hslope
        exact div_pos_of_neg_of_neg (by norm_num) (not_le.mp hslope)
    · cases h

/-! ### Ratios of energies -/

/-- The definition is a part of the energy, and clarity is its logarithm. -/
theorem clarityOf_d50 {reaches80 : Bool} (hearly : 0 ≤ early50)
    (h : (clarityOf realLogs early50 early80 total reaches80).d50.refusal = .none) :
    let c := clarityOf realLogs early50 early80 total reaches80
    0 ≤ c.d50.value ∧ c.d50.value < 1 ∧ (c.d50.value = 0 ↔ early50 = 0) ∧
      c.c50Db.refusal = .none ∧
      c.c50Db.value = powerToDb realLogs (c.d50.value / (1 - c.d50.value)) := by
  simp only [clarityOf, DecayValue.ofLate] at h ⊢
  split_ifs at h ⊢ with hlate
  have htotal : 0 < total := by linarith
  have hpart : early50 / total / (1 - early50 / total) = early50 / (total - early50) := by
    rw [one_sub_div htotal.ne', div_div_div_cancel_right₀ htotal.ne']
  refine ⟨by positivity, (div_lt_one htotal).mpr (by linarith), ?_, rfl, by rw [hpart]⟩
  exact div_eq_zero_iff.trans (or_iff_left htotal.ne')

theorem clarityOf_c80 {reaches80 : Bool} (hearly : 0 ≤ early50) (hle : early50 ≤ early80)
    (h : (clarityOf realLogs early50 early80 total reaches80).c80Db.refusal = .none) :
    let c := clarityOf realLogs early50 early80 total reaches80
    c.c50Db.refusal = .none ∧ c.c50Db.value ≤ c.c80Db.value := by
  simp only [clarityOf, DecayValue.ofLate] at h ⊢
  split_ifs at h ⊢ with hlate50 hlate80 hlater
  · refine ⟨rfl, powerToDb_mono ?_⟩
    exact div_le_div₀ (hearly.trans hle) hle hlate80.2 (by linarith)
  · have := hlater.2
    exact absurd (show 0 < total - early50 by linarith) hlate50

theorem sum_squares_take_le (x : List ℝ) {m n : ℕ} (h : m ≤ n) :
    ((squares x).take m).sum ≤ ((squares x).take n).sum := by
  obtain ⟨k, rfl⟩ := Nat.exists_eq_add_of_le h
  rw [List.take_add, List.sum_append]
  refine le_add_of_nonneg_right (List.sum_nonneg fun v hv => squares_nonneg x v ?_)
  exact List.mem_of_mem_drop (List.mem_of_mem_take hv)

/-- Clarity is refused, or it is the figures of the early energy and of some other two. -/
theorem clarity_eq (bandResponse : List ℝ) (originIndex : ℕ) (sampleRate lowBandEdgeHz : ℝ)
    (curve : EnergyDecayCurve ℝ) :
    (∃ why, why ≠ .none ∧
      clarity realLogs bandResponse originIndex sampleRate lowBandEdgeHz curve =
        .ok (refuseAll why)) ∨
    ∃ early80 total reaches80,
      (squares (earlySamples bandResponse originIndex sampleRate lowBandEdgeHz)).sum ≤ early80 ∧
      clarity realLogs bandResponse originIndex sampleRate lowBandEdgeHz curve =
        .ok (clarityOf realLogs
          (squares (earlySamples bandResponse originIndex sampleRate lowBandEdgeHz)).sum
          early80 total reaches80) := by
  rw [clarity]
  split_ifs with hbad hcurve
  · exact .inl ⟨.noDecayFound, by decide, rfl⟩
  · exact .inl ⟨curve.refusal, hcurve, rfl⟩
  · simp only [not_or, not_not] at hbad
    dsimp only
    split_ifs with hcut
    · exact .inl ⟨.rangeTooSmall, by decide, rfl⟩
    · rw [leadInSamplesFor, if_neg (not_not.mpr hbad.1), if_neg (not_not.mpr hbad.2.1)]
      dsimp only
      split_ifs with htotal
      · set preRing := min ⌊2 * sampleRate / lowBandEdgeHz + 1 / 2⌋₊ originIndex with hpre
        set tail := bandResponse.drop originIndex with htail
        set cut := min curve.crossingIndex tail.length
        have hsplit : earlySamples bandResponse originIndex sampleRate lowBandEdgeHz =
            (bandResponse.drop (originIndex - preRing)).take preRing ++
              tail.take ⌊1 / 20 * sampleRate⌋₊ := by
          have horigin : originIndex - preRing + preRing = originIndex :=
            Nat.sub_add_cancel (min_le_right _ _)
          rw [earlySamples, List.take_add, List.drop_drop, horigin]
        have hearly : (squares (earlySamples bandResponse originIndex sampleRate
            lowBandEdgeHz)).sum =
            (squares ((bandResponse.drop (originIndex - preRing)).take preRing)).sum +
              ((squares (tail.take cut)).take ⌊1 / 20 * sampleRate⌋₊).sum := by
          rw [hsplit, squares, List.map_append, List.sum_append, squares, squares,
            ← List.map_take, List.take_take, min_eq_left (not_le.mp hcut).le]
        refine .inr ⟨_, _, _, ?_, by rw [hearly]⟩
        rw [hearly]
        refine add_le_add_right (sum_squares_take_le _ (Nat.floor_le_floor ?_)) _
        have := hbad.1
        linarith
      · exact .inl ⟨.noDecayFound, by decide, rfl⟩

/-- **Headline.** A curve starts at no decibel, never rises, is as long as its crossing is late and
rests on a positive correction; a decay time is positive; the definition is a part of the energy,
which is none of it exactly where the early samples are silent, and clarity is its logarithm, at 80
milliseconds no less than at 50. -/
theorem decay_facts :
    (∀ (cfg : DecayConfig ℝ) bandResponse originIndex sampleRate bandwidthHz,
      let curve := energyDecayCurve realLogs cfg bandResponse originIndex sampleRate bandwidthHz
      curve.refusal = .none →
        curve.db.head? = some 0 ∧ curve.db.Pairwise (fun a b => b ≤ a) ∧
        (∃ crossing,
          findCrossing realLogs cfg (squares (bandResponse.drop originIndex)) sampleRate =
            some crossing ∧
          curve.db.length = crossing.index ∧ curve.crossingIndex = crossing.index) ∧
        0 < curve.truncationCorrection) ∧
    (∀ curve : EnergyDecayCurve ℝ,
      ∀ time ∈ [(decayTimes curve).edt, (decayTimes curve).t20, (decayTimes curve).t30],
        time.refusal = .none → 0 < time.seconds) ∧
    ∀ bandResponse originIndex sampleRate lowBandEdgeHz curve, ∃ c,
      clarity realLogs bandResponse originIndex sampleRate lowBandEdgeHz curve = .ok c ∧
      (c.c50Db.refusal = .none ↔ c.d50.refusal = .none) ∧
      (c.d50.refusal = .none →
        0 ≤ c.d50.value ∧ c.d50.value < 1 ∧
        (c.d50.value = 0 ↔
          ∀ v ∈ earlySamples bandResponse originIndex sampleRate lowBandEdgeHz, v = 0) ∧
        c.c50Db.value = 10 * Real.logb 10 (max (c.d50.value / (1 - c.d50.value)) kTiny)) ∧
      (c.c80Db.refusal = .none → c.c50Db.refusal = .none ∧ c.c50Db.value ≤ c.c80Db.value) := by
  refine ⟨?_, ?_, ?_⟩
  · intro cfg bandResponse originIndex sampleRate bandwidthHz curve hcurve
    obtain ⟨crossing, hfind, heq⟩ := energyDecayCurve_has hcurve
    obtain ⟨hfirst, hinside, hslope⟩ := findCrossing_spec hfind
    have hcorrection := truncationEnergy_pos hslope
    have hsum : 0 < ((squares (bandResponse.drop originIndex)).take crossing.index).sum +
        truncationEnergy realLogs crossing := by
      refine add_pos_of_nonneg_of_pos (List.sum_nonneg fun v hv => ?_) hcorrection
      exact squares_nonneg _ v (List.mem_of_mem_take hv)
    have hcurveEq : curve = gated cfg bandwidthHz
        (integrated realLogs sampleRate (squares (bandResponse.drop originIndex)) crossing) := heq
    rw [hcurveEq] at hcurve ⊢
    obtain ⟨hdb, hindex, htruncation⟩ := gated_has hcurve
    rw [hdb, hindex, htruncation]
    exact ⟨integrated_db_head hinside.le (by omega) hsum,
      integrated_db_pairwise (squares_nonneg _) hsum,
      ⟨crossing, hfind, integrated_db_length hinside.le, rfl⟩, hcorrection⟩
  · intro curve time htime hnone
    simp only [List.mem_cons, List.not_mem_nil, or_false] at htime
    obtain rfl | rfl | rfl := htime <;> exact fitOne_pos hnone
  · intro bandResponse originIndex sampleRate lowBandEdgeHz curve
    obtain ⟨why, hwhy, heq⟩ | ⟨early80, total, reaches80, hle, heq⟩ :=
      clarity_eq bandResponse originIndex sampleRate lowBandEdgeHz curve
    · exact ⟨_, heq, Iff.rfl, fun h => absurd h hwhy, fun h => absurd h hwhy⟩
    · have hearly := sum_squares_nonneg
        (earlySamples bandResponse originIndex sampleRate lowBandEdgeHz)
      refine ⟨_, heq, ?_, ?_, clarityOf_c80 hearly hle⟩
      · simp only [clarityOf, DecayValue.ofLate]
        split_ifs <;> rfl
      · intro hd50
        obtain ⟨hnonneg, hlt, hzero, -, hvalue⟩ := clarityOf_d50 hearly hd50
        exact ⟨hnonneg, hlt, hzero.trans sum_squares_eq_zero, hvalue⟩

/-- With blocks of one sample the levels are the samples. -/
theorem blockAverage_single {x : List ℝ} (hx : 2 ≤ x.length) {window : ℕ} (hwindow : window ≤ 1) :
    blockAverage x window =
      some (x, (List.range x.length).map fun b : ℕ => ((b : ℝ) + 1 / 2)) := by
  have hone : (if window = 0 then 1 else window) = 1 := by
    split_ifs <;> omega
  rw [blockAverage, hone, Nat.div_one, if_neg (by omega)]
  congr 2
  · refine List.ext_getElem (by simp) fun i hi hi' => ?_
    simp [List.take_one, List.head?_drop, hi']
  · simp

/-! ### A response without early energy -/

/-- Silence, a plateau, one sample of decay and the floor. -/
noncomputable def lateArrival : List ℝ := 0 :: 1 :: 1 :: 1 / 10 :: List.replicate 29 (1 / 10 ^ 8)

/-- A search of one round, on blocks of one sample. -/
noncomputable def oneRound : DecayConfig ℝ :=
  { intervalsPer10Db := 1, noiseMarginDb := 0, maxIterations := 1 }

theorem squares_lateArrival :
    squares lateArrival = 0 :: 1 :: 1 :: 1 / 10 ^ 2 :: List.replicate 29 (1 / 10 ^ 16) := by
  simp only [squares, lateArrival, List.map_cons, List.map_replicate]
  norm_num

theorem peakIndex_lateArrival : peakIndex (squares lateArrival) = 1 := by
  have hle : ∀ i, (squares lateArrival).getD i 0 ≤ 1 := by
    intro i
    rw [squares_lateArrival, List.getD_eq_getElem?_getD]
    rcases hget : (0 :: 1 :: 1 :: 1 / 10 ^ 2 :: List.replicate 29 (1 / 10 ^ 16 : ℝ))[i]? with _ | v
    · exact zero_le_one
    · have hmem := List.mem_of_getElem? hget
      simp only [List.mem_cons, List.mem_replicate] at hmem
      obtain rfl | rfl | rfl | rfl | ⟨-, rfl⟩ := hmem <;> norm_num
  have hfixed : ∀ is : List ℕ, is.foldl (fun peak i =>
      if (squares lateArrival).getD peak 0 < (squares lateArrival).getD i 0 then i else peak) 1
        = 1 := by
    intro is
    induction is with
    | nil => rfl
    | cons i is ih =>
      have hone : (squares lateArrival).getD 1 0 = 1 := by rw [squares_lateArrival]; rfl
      rw [List.foldl_cons, hone, if_neg (not_lt.mpr (hle i)), ih]
  have hfirst : (squares lateArrival).getD 0 0 < (squares lateArrival).getD 1 0 := by
    rw [squares_lateArrival]
    exact zero_lt_one
  have hlength : (squares lateArrival).length = 33 := by
    rw [squares_lateArrival]
    simp
  rw [peakIndex, hlength]
  rw [show List.range' 1 (33 - 1) = 1 :: List.range' 2 31 from rfl, List.foldl_cons, if_pos hfirst,
    hfixed]

theorem lateDecayFit_lateArrival :
    lateDecayFit realLogs oneRound (squares lateArrival)
      ((List.range 33).map fun b : ℕ => ((b : ℝ) + 1 / 2)) (-160) = some (-10, 55 / 3) := by
  have hplateau : powerToDb realLogs (1 : ℝ) = 0 := powerToDb_one
  have hstep : powerToDb realLogs (1 / 10 ^ 2 : ℝ) = -20 := by
    rw [powerToDb_pow (by norm_num)]
    norm_num
  have hfloor : powerToDb realLogs (1 / 10 ^ 16 : ℝ) = -160 := by
    rw [powerToDb_pow (by norm_num)]
    norm_num
  have hlast : lastUsable realLogs (squares lateArrival) 1 (-160 + oneRound.standoffDb) = 3 := by
    rw [lastUsable, squares_lateArrival]
    simp only [List.drop_succ_cons, List.drop_zero, List.takeWhile_cons, hplateau, hstep, hfloor,
      oneRound, List.replicate_succ]
    norm_num
  have hlevels : (squares lateArrival).getD 1 0 = 1 ∧ (squares lateArrival).getD 2 0 = 1 ∧
      (squares lateArrival).getD 3 0 = 1 / 10 ^ 2 := by
    rw [squares_lateArrival]
    exact ⟨rfl, rfl, rfl⟩
  have hfitted : ((List.range' 1 3).filter fun i =>
      powerToDb realLogs ((squares lateArrival).getD i 0) ≤ 0 ∧
        0 - oneRound.fitRangeDb ≤ powerToDb realLogs ((squares lateArrival).getD i 0)) =
      [1, 2, 3] := by
    simp only [List.range'_succ, List.range'_zero, List.filter_cons, List.filter_nil, hlevels,
      hplateau, hstep, oneRound]
    norm_num
  rw [lateDecayFit]
  simp only [peakIndex_lateArrival, hlevels, hplateau, hlast]
  rw [if_neg (by norm_num [oneRound])]
  simp only [Nat.reduceAdd, Nat.reduceSub, hfitted]
  have hline : leastSquares [3 / 2, 5 / 2, 7 / 2] [(0 : ℝ), 0, -20] = some (-10, 55 / 3) := by
    simp only [leastSquares]
    norm_num
  have hcentres : ([1, 2, 3].map fun i : ℕ =>
      ((List.range 33).map fun b : ℕ => ((b : ℝ) + 1 / 2)).getD i 0) = [3 / 2, 5 / 2, 7 / 2] := by
    simp [List.range_succ]
    norm_num
  have hdbs : ([1, 2, 3].map fun i : ℕ => powerToDb realLogs ((squares lateArrival).getD i 0)) =
      [0, 0, -20] := by
    simp only [List.map_cons, List.map_nil, hlevels, hplateau, hstep]
  rw [hcentres, hdbs, hline]
  norm_num

/-- Where it meets the floor. -/
noncomputable def lateCrossing : Crossing ℝ :=
  { index := 17, noisePower := 1 / 10 ^ 16, slopeDbPerSample := 10, interceptDb := 55 / 3 }

theorem findCrossing_lateArrival :
    findCrossing realLogs oneRound (squares lateArrival) 20 = some lateCrossing := by
  have hlength : (squares lateArrival).length = 33 := by
    rw [squares_lateArrival]
    simp
  have htwo : 2 ≤ (squares lateArrival).length := by omega
  have hwindow : ⌊(3 / 100 * 20 : ℝ)⌋₊ = 0 := Nat.floor_eq_zero.mpr (by norm_num)
  have hstart : ⌊(9 / 10 * (33 : ℕ) : ℝ)⌋₊ = 29 :=
    (Nat.floor_eq_iff (by norm_num)).mpr ⟨by norm_num, by norm_num⟩
  have hnoise : ∀ k, 4 ≤ k → k < 33 →
      ((squares lateArrival).drop k).sum / (33 - k : ℕ) = 1 / 10 ^ 16 := by
    intro k hlow hhigh
    obtain ⟨j, rfl⟩ := Nat.exists_eq_add_of_le' hlow
    have hne : ((29 - j : ℕ) : ℝ) ≠ 0 := by
      rw [Nat.cast_ne_zero]
      omega
    rw [squares_lateArrival]
    simp only [List.drop_succ_cons, List.drop_replicate, List.sum_replicate, nsmul_eq_mul]
    rw [show 33 - (j + 4) = 29 - j by omega]
    field_simp
  have hfloor : powerToDb realLogs (1 / 10 ^ 16 : ℝ) = -160 := by
    rw [powerToDb_pow (by norm_num)]
    norm_num
  have hplace : ⌊(107 / 6 : ℝ)⌋₊ = 17 :=
    (Nat.floor_eq_iff (by norm_num)).mpr ⟨by norm_num, by norm_num⟩
  have hreestimate : reestimate oneRound (squares lateArrival) (-10) (107 / 6) =
      some (squares lateArrival, (List.range 33).map fun b : ℕ => ((b : ℝ) + 1 / 2),
        1 / 10 ^ 16) := by
    have hround : ⌊(10 / - -10 / 1 : ℝ)⌋₊ = 1 := by norm_num
    have hmargin : (107 / 6 + 0 / - -10 : ℝ) = 107 / 6 := by norm_num
    rw [reestimate]
    simp only [oneRound, hround, hmargin, hlength, hplace, blockAverage_single htwo le_rfl,
      hnoise 17 (by norm_num) (by norm_num)]
    norm_num
  have hnext : (-160 - 55 / 3) / (-10 : ℝ) = 107 / 6 := by norm_num
  rw [findCrossing, hwindow, blockAverage_single htwo zero_le_one]
  simp only [hlength, hstart, hnoise 29 (by norm_num) (by norm_num)]
  rw [if_neg (by norm_num), if_neg (by norm_num), if_neg (by norm_num)]
  simp only [show oneRound.maxIterations.toNat = 1 from rfl, searchLoop, hfloor,
    lateDecayFit_lateArrival, hnext, hreestimate]
  rw [if_neg Bool.false_ne_true]
  dsimp only
  rw [if_neg (by norm_num), hplace, if_pos (by norm_num), neg_neg]
  rfl

theorem sum_lateArrival : 0 < (squares (lateArrival.take 17)).sum ∧
    ((squares (lateArrival.take 17)).take 1).sum = 0 := by
  have htake : lateArrival.take 17 =
      0 :: 1 :: 1 :: 1 / 10 :: List.replicate 13 (1 / 10 ^ 8) := by
    simp [lateArrival]
  rw [htake]
  constructor
  · simp only [squares, List.map_cons, List.map_replicate, List.sum_cons, List.sum_replicate]
    norm_num
  · simp [squares]

theorem energyDecayCurve_lateArrival :
    energyDecayCurve realLogs oneRound lateArrival 0 20 0 =
      gated oneRound 0 (integrated realLogs 20 (squares lateArrival) lateCrossing) := by
  have hlength : lateArrival.length = 33 := by simp [lateArrival]
  have hsquares : (squares lateArrival).take 17 = squares (lateArrival.take 17) :=
    List.map_take.symm
  have hhead : (backwardSums (squares (lateArrival.take 17))).getD 0 0 =
      (squares (lateArrival.take 17)).sum := by
    rw [← headD_backwardSums, List.headD_eq_head?_getD, List.getD_eq_getElem?_getD,
      List.head?_eq_getElem?]
  have hindex : lateCrossing.index = 17 := rfl
  rw [energyDecayCurve, if_neg (by rw [hlength]; norm_num)]
  simp only [List.drop_zero, findCrossing_lateArrival, hindex, hsquares, hhead]
  rw [if_neg]
  rw [not_or, length_backwardSums, not_le]
  exact ⟨by simp [squares, hlength], sum_lateArrival.1⟩

theorem clarity_eq_lateArrival (hrefusal : curve.refusal = .none)
    (hindex : curve.crossingIndex = 17) (hcorrection : 0 < curve.truncationCorrection) :
    ∃ early80 total reaches80, 0 < total ∧ clarity realLogs lateArrival 0 20 1 curve =
      .ok (clarityOf realLogs 0 early80 total reaches80) := by
  have hlength : lateArrival.length = 33 := by simp [lateArrival]
  have h50 : ⌊(1 / 20 * 20 : ℝ)⌋₊ = 1 := by norm_num
  have hlead : leadInSamplesFor (20 : ℝ) 1 = .ok 40 := by
    have hfloor : ⌊(2 * 20 / 1 + 1 / 2 : ℝ)⌋₊ = 40 :=
      (Nat.floor_eq_iff (by norm_num)).mpr ⟨by norm_num, by norm_num⟩
    rw [leadInSamplesFor, if_neg (by norm_num), if_neg (by norm_num), hfloor]
  obtain ⟨hpos, hearly⟩ := sum_lateArrival
  have hnothing : (squares ([] : List ℝ)).sum = 0 := rfl
  refine ⟨((squares (lateArrival.take 17)).take ⌊(2 / 25 * 20 : ℝ)⌋₊).sum,
    (squares (lateArrival.take 17)).sum + curve.truncationCorrection,
    decide (⌊(2 / 25 * 20 : ℝ)⌋₊ < 17), add_pos hpos hcorrection, ?_⟩
  rw [clarity, if_neg (by rw [hlength]; norm_num), if_neg (not_not.mpr hrefusal)]
  simp only [List.drop_zero, hlength, hindex, h50, hlead]
  rw [if_neg (by norm_num)]
  simp only [Nat.min_zero, Nat.sub_zero, List.take_zero, List.drop_zero, hnothing, zero_add,
    show min 17 33 = 17 from rfl, hearly]
  rw [if_neg (not_not.mpr hpos)]

/-- What is early is silent, and its definition is nothing. -/
theorem clarity_lateArrival :
    let curve := energyDecayCurve realLogs oneRound lateArrival 0 20 0
    curve.refusal = .none ∧
      ∃ c, clarity realLogs lateArrival 0 20 1 curve = .ok c ∧ c.d50.refusal = .none ∧
        ¬(0 < c.d50.value ∧ c.d50.value < 1) := by
  have hopen : ∀ curve : EnergyDecayCurve ℝ, (gated oneRound 0 curve).refusal = curve.refusal ∧
      (gated oneRound 0 curve).crossingIndex = curve.crossingIndex ∧
      (gated oneRound 0 curve).truncationCorrection = curve.truncationCorrection := by
    intro curve
    rw [gated, if_neg fun h => lt_irrefl _ h.1]
    exact ⟨rfl, rfl, rfl⟩
  have hcorrection : 0 < truncationEnergy realLogs lateCrossing :=
    truncationEnergy_pos (by norm_num [lateCrossing])
  rw [energyDecayCurve_lateArrival]
  obtain ⟨hrefusal, hindex, htruncation⟩ :=
    hopen (integrated realLogs 20 (squares lateArrival) lateCrossing)
  obtain ⟨early80, total, reaches80, htotal, heq⟩ :=
    clarity_eq_lateArrival hrefusal hindex (htruncation ▸ hcorrection)
  refine ⟨hrefusal, _, heq, ?_, ?_⟩
  · simp [clarityOf, DecayValue.ofLate, htotal]
  · simp [clarityOf, DecayValue.ofLate, htotal]

end Ir

end RtaTool
