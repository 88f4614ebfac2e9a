import RtaTool.Eq.DipClassifier
import RtaTool.Eq.EqGainSolve

/-!
# The allocator

`EqAllocator.cpp`: the automatic offset, the two walks from an extremum, the bound on Q, the greedy
loop that takes up one bin after another, and its two callers. One turn of the loop is
`greedyTurn`; the loop is `greedyFrom`, which ends because every turn that goes on either closes a bin
or fills a slot.

A bin that is taken up is placed on, closing every bin within half a bandwidth of it, or, where the
gate refuses a boost, only closed itself.

## Main definitions

* `autoOffsetDb`, `computeWorkingResidual`
* `walkToFlank`, `halfCrossingHz`, `tiedQMaxBoost`, `qMaxAt`, `qAt`
* `bestBin`, `greedyTurn`, `greedyPlace`
* `rankCandidates`, `autoEq`
* `TakesUp`, `GreedyReaches` -- the states of the loop and the bin it takes up in each

## Main results

* `bestBin_spec` -- the search finds an open bin of the largest residual
* `greedyTurn_of_takesUp` -- a turn is the rest of it, once a bin has been found
* `takeBin_cases` -- everything a turn can go on with
* `centre_of_rankCandidates`, `centre_of_autoEq` -- every filter is centred on a bin that is in play
* `greedyFrom_of_reaches` -- the loop's outcome is that of any state it reaches
-/

namespace RtaTool

namespace AutoEq

variable {K : Type*} [Field K] [LinearOrder K]

/-- `kQMin`. -/
def kQMin : K := 3 / 10

/-- `kMinPlacementDb`. -/
def kMinPlacementDb : K := 1 / 5

/-! ### Offset and residual -/

/-- `autoOffsetDb`, of an input that is valid. -/
def autoOffsetDb (input : EqInput K) : K :=
  let bins := List.range input.hz.length
  let num := (bins.map fun k => input.weight k * input.residualDb.getD k 0).sum
  let den := (bins.map input.weight).sum
  if 0 < den then num / den else 0

/-- `computeWorkingResidual`. -/
def computeWorkingResidual (input : EqInput K) (c : K) : List K :=
  (List.range input.hz.length).map fun k => input.residualDb.getD k 0 - c

/-! ### The region around an extremum -/

/-- `walkToFlank` with direction -1. -/
def walkDown (residual : List K) (sign : K) : ℕ → ℕ
  | 0 => 0
  | idx + 1 =>
    if sign * residual.getD idx 0 ≤ sign * residual.getD (idx + 1) 0 then
      walkDown residual sign idx
    else idx + 1

/-- `walkToFlank` with direction +1, `left` bins being left above `idx`. -/
def walkUp (residual : List K) (sign : K) : ℕ → ℕ → ℕ
  | 0, idx => idx
  | left + 1, idx =>
    if sign * residual.getD (idx + 1) 0 ≤ sign * residual.getD idx 0 then
      walkUp residual sign left (idx + 1)
    else idx

theorem walkDown_le (residual : List K) (sign : K) (idx : ℕ) : walkDown residual sign idx ≤ idx := by
  induction idx with
  | zero => exact Nat.le_refl 0
  | succ idx ih =>
    rw [walkDown]
    split
    · exact ih.trans (Nat.le_succ idx)
    · exact Nat.le_refl _

theorem walkUp_bounds (residual : List K) (sign : K) (left idx : ℕ) :
    idx ≤ walkUp residual sign left idx ∧ walkUp residual sign left idx ≤ idx + left := by
  induction left generalizing idx with
  | zero => exact ⟨Nat.le_refl idx, Nat.le_refl idx⟩
  | succ left ih =>
    rw [walkUp]
    split
    · obtain ⟨hlow, hhigh⟩ := ih (idx + 1)
      constructor <;> omega
    · constructor <;> omega

/-- `halfCrossingHz`. -/
def halfCrossingHz (hz residual : List K) (fStar flank : ℕ) (sign : K) : K :=
  let half := sign * residual.getD fStar 0 / 2
  let bins :=
    if flank < fStar then (List.range' flank (fStar - flank)).reverse
    else List.range' (fStar + 1) (flank - fStar)
  match bins.find? fun next => sign * residual.getD next 0 < half with
  | some next => hz.getD next 0
  | none => hz.getD flank 0

section Region

variable (working : List K) (fStar : ℕ)

/-- `workingResidual[fStar] < 0.0f`: a dip, to be boosted. -/
def IsBoost : Prop := working.getD fStar 0 < 0

instance : Decidable (IsBoost working fStar) := inferInstanceAs (Decidable (_ < _))

/-- `sign`. -/
def signAt : K := if IsBoost working fStar then -1 else 1

/-- `fL`. -/
def flankLeft : ℕ := walkDown working (signAt working fStar) fStar

/-- `fR`. -/
def flankRight : ℕ := walkUp working (signAt working fStar) (working.length - 1 - fStar) fStar

end Region

variable (math : MathFns K) (curve : ExcessCurve K) (input : EqInput K) (working : List K)
  (maxCount : ℤ)

/-- `tiedQMaxBoost`. -/
def tiedQMaxBoost (fc : K) : K :=
  match input.roomT60Sec with
  | none => input.qMaxBoost
  | some t60 =>
    if 0 < fc then min (t60 * fc / (11 / 5 * math.pow10 (input.gCapDb / 40))) (input.qMaxBoost * 4)
    else input.qMaxBoost

/-- `qMax` for the bin `fStar`. -/
def qMaxAt (fStar : ℕ) : K :=
  if IsBoost working fStar then tiedQMaxBoost math input (input.hz.getD fStar 0) else input.qMaxCut

/-- `std::clamp(fc / std::max(f2 - f1, 1e-9), kQMin, qMax)`. -/
def qAt (fStar : ℕ) : Option K :=
  let sign := signAt working fStar
  let f1 := halfCrossingHz input.hz working fStar (flankLeft working fStar) sign
  let f2 := halfCrossingHz input.hz working fStar (flankRight working fStar) sign
  stdClamp math (input.hz.getD fStar 0 / max (f2 - f1) (1 / 1000000000)) kQMin
    (qMaxAt math input working fStar)

/-! ### The search -/

/-- The bins the search does not pass over. -/
def EqInput.Open (blocked : List Bool) (k : ℕ) : Prop :=
  input.InPlay k ∧ blocked.getD k true = false ∧
    0 < input.hz.getD k 0 ∧ input.hz.getD k 0 < input.sampleRate / 2

instance (blocked : List Bool) (k : ℕ) : Decidable (input.Open blocked k) :=
  inferInstanceAs (Decidable (_ ∧ _))

/-- One bin of the search, on `fStar` and `bestAbs`. -/
def searchBin (blocked : List Bool) (best : ℕ × K) (k : ℕ) : ℕ × K :=
  if input.Open blocked k ∧ best.2 < |working.getD k 0| then (k, |working.getD k 0|) else best

/-- `fStar` and `bestAbs` after the search. -/
def bestBin (blocked : List Bool) : ℕ × K :=
  (List.range input.hz.length).foldl (searchBin input working blocked) (input.hz.length, -1)

/-- What the search has found among the first `n` bins. -/
def SearchedTo (blocked : List Bool) (n : ℕ) (best : ℕ × K) : Prop :=
  (∀ k < n, input.Open blocked k → |working.getD k 0| ≤ best.2) ∧
    (best.1 < input.hz.length → input.Open blocked best.1 ∧ best.2 = |working.getD best.1 0|)

theorem searchedTo_foldl (blocked : List Bool) {n : ℕ} (hn : n ≤ input.hz.length) :
    SearchedTo input working blocked n
      ((List.range n).foldl (searchBin input working blocked) (input.hz.length, -1)) := by
  induction n with
  | zero => exact ⟨fun k hk => absurd hk (Nat.not_lt_zero k), fun h => absurd h (Nat.lt_irrefl _)⟩
  | succ n ih =>
    obtain ⟨hbest, hfound⟩ := ih (Nat.le_of_succ_le hn)
    rw [List.range_succ, List.foldl_append, List.foldl_cons, List.foldl_nil]
    generalize (List.range n).foldl (searchBin input working blocked) (input.hz.length, -1) = best at *
    rw [searchBin]
    split_ifs with htake
    · refine ⟨fun k hk hopen => ?_, fun _ => ⟨htake.1, rfl⟩⟩
      obtain hlt | rfl := Nat.lt_succ_iff_lt_or_eq.mp hk
      · exact (hbest k hlt hopen).trans htake.2.le
      · exact le_refl _
    · refine ⟨fun k hk hopen => ?_, hfound⟩
      obtain hlt | rfl := Nat.lt_succ_iff_lt_or_eq.mp hk
      · exact hbest k hlt hopen
      · exact le_of_not_gt fun hgt => htake ⟨hopen, hgt⟩

theorem bestBin_spec (blocked : List Bool) :
    SearchedTo input working blocked input.hz.length (bestBin input working blocked) :=
  searchedTo_foldl input working blocked (Nat.le_refl _)

/-! ### One turn of the loop -/

/-- `Placement`. -/
structure Placement (K : Type*) where
  spec : FilterSpec K
  scoreDb : K
  dip : DipClassification K

/-- The locals of `greedyPlace` that a turn changes. -/
structure GreedyState (K : Type*) where
  placements : List (Placement K)
  blocked : List Bool
  xp : Option (ExcessPhaseResult K)

/-- The locals before the loop. -/
def GreedyState.start : GreedyState K :=
  { placements := [], blocked := List.replicate input.hz.length false, xp := none }

/-- How a turn ends: the loop is left, an exception leaves it, a misused clamp does not return, or
there is another turn. -/
inductive GreedyTurn (K : Type*)
  | done
  | threw
  | aborted
  | next (s : GreedyState K)

/-- `gateAvailable`. -/
def GateAvailable : Prop := input.hHalfGrid ≠ [] ∧ input.hHalfGrid.length = input.hz.length

instance : Decidable (GateAvailable input) := inferInstanceAs (Decidable (_ ∧ _))

/-- `computeExcessPhase`. -/
def computeExcessPhase : Option (ExcessPhaseResult K) :=
  excessPhase curve (input.hHalfGrid.map fun h => math.sqrt (h.1 * h.1 + h.2 * h.2)) input.hHalfGrid
    input.trusted input.sampleRate

/-- The gate's verdict on a boost at `fStar`. -/
def gate (xp : ExcessPhaseResult K) (fStar : ℕ) : Option (DipClassification K) :=
  classifyDip math xp input.hz (flankLeft working fStar) fStar (flankRight working fStar) working

/-- `DipClassification dip{ DipVerdict::Boostable, 0.0, 0.0, 0.0 }`. -/
def ungated : DipClassification K :=
  { verdict := .boostable, depthDb := 0, swingRad := 0, thresholdRad := 0 }

/-- The halo that a filter of this centre and Q closes. -/
def blockHalo (fc q : K) (blocked : List Bool) : List Bool :=
  blocked.mapIdx fun k b => b || decide (|input.hz.getD k 0 - fc| ≤ fc / (2 * q))

namespace GreedyState

/-- The gate refuses a boost: the bin is closed and nothing is placed. -/
def refuse (s : GreedyState K) (fStar : ℕ) (xp : ExcessPhaseResult K) : GreedyState K :=
  { s with blocked := s.blocked.set fStar true, xp := some xp }

/-- A filter is placed, and its halo closed. -/
def place (s : GreedyState K) (fStar : ℕ) (bestAbs q : K) (dip : DipClassification K) :
    GreedyState K :=
  let fc := input.hz.getD fStar 0
  { s with
    placements :=
      s.placements ++
        [{ spec := { type := .peaking, fcHz := fc, q, gainDb := 0 }, scoreDb := bestAbs, dip }]
    blocked := blockHalo input fc q s.blocked }

/-- The rest of a turn, once a bin has been found. -/
def takeBin (s : GreedyState K) (fStar : ℕ) (bestAbs : K) : GreedyTurn K :=
  match qAt math input working fStar with
  | none => .aborted
  | some q =>
    if IsBoost working fStar ∧ GateAvailable input then
      match s.xp.or (computeExcessPhase math curve input) with
      | none => .threw
      | some xp =>
        match gate math input working xp fStar with
        | none => .threw
        | some dip =>
          if dip.verdict = .notMinimumPhase then .next (s.refuse fStar xp)
          else .next ({ s with xp := some xp }.place input fStar bestAbs q dip)
    else .next (s.place input fStar bestAbs q ungated)

end GreedyState

/-- One turn of the loop of `greedyPlace`. -/
def greedyTurn (s : GreedyState K) : GreedyTurn K :=
  if ¬ (s.placements.length : ℤ) < maxCount then .done
  else
    let best := bestBin input working s.blocked
    if input.hz.length ≤ best.1 ∨ best.2 < kMinPlacementDb then .done
    else s.takeBin math curve input working best.1 best.2

/-- The bin the turn from `s` takes up. -/
def TakesUp (s : GreedyState K) (k : ℕ) : Prop :=
  (s.placements.length : ℤ) < maxCount ∧ k < input.hz.length ∧
    (bestBin input working s.blocked).1 = k ∧ kMinPlacementDb ≤ (bestBin input working s.blocked).2

variable {math curve input working maxCount}

variable {s : GreedyState K}

theorem open_of_takesUp {k : ℕ} (h : TakesUp input working maxCount s k) :
    input.Open s.blocked k ∧ (bestBin input working s.blocked).2 = |working.getD k 0| ∧
      ∀ j < input.hz.length, input.Open s.blocked j → |working.getD j 0| ≤ |working.getD k 0| := by
  obtain ⟨-, hk, rfl, -⟩ := h
  obtain ⟨hbest, hfound⟩ := bestBin_spec input working s.blocked
  obtain ⟨hopen, hscore⟩ := hfound hk
  exact ⟨hopen, hscore, fun j hj hj' => hscore ▸ hbest j hj hj'⟩

theorem greedyTurn_of_takesUp {k : ℕ} (h : TakesUp input working maxCount s k) :
    greedyTurn math curve input working maxCount s =
      s.takeBin math curve input working k |working.getD k 0| := by
  obtain ⟨-, hscore, -⟩ := open_of_takesUp h
  obtain ⟨hroom, hk, rfl, hmin⟩ := h
  rw [greedyTurn, if_neg (not_not_intro hroom), ← hscore]
  exact if_neg (not_or_intro hk.not_ge hmin.not_gt)

theorem greedyTurn_of_not_takesUp (h : ∀ k, ¬ TakesUp input working maxCount s k) :
    greedyTurn math curve input working maxCount s = .done := by
  rw [greedyTurn]
  split_ifs with hroom
  · refine if_pos ?_
    by_contra hgo
    rw [not_or, not_le, not_lt] at hgo
    exact h _ ⟨hroom, hgo.1, rfl, hgo.2⟩
  · rfl

/-- The gate refuses a boost at `k`. -/
def Refused (math : MathFns K) (curve : ExcessCurve K) (input : EqInput K) (working : List K)
    (k : ℕ) (xp : ExcessPhaseResult K) : Prop :=
  IsBoost working k ∧ GateAvailable input ∧
    ∃ dip, gate math input working xp k = some dip ∧ dip.verdict = .notMinimumPhase

variable {s t : GreedyState K}

/-- What `takeBin` can go on with: a refusal, or a placement the gate has nothing against. -/
theorem takeBin_cases {k : ℕ} {score : K}
    (h : s.takeBin math curve input working k score = .next t) :
    ∃ q, qAt math input working k = some q ∧
      ((∃ xp, s.xp.or (computeExcessPhase math curve input) = some xp ∧
          Refused math curve input working k xp ∧ t = s.refuse k xp) ∨
        ∃ xp dip, (xp = s.xp ∨ xp = s.xp.or (computeExcessPhase math curve input)) ∧
          dip.verdict ≠ .notMinimumPhase ∧
          t = { s with xp := xp }.place input k score q dip) := by
  rw [GreedyState.takeBin.eq_def] at h
  split at h
  · cases h
  · next q hq =>
    refine ⟨q, hq, ?_⟩
    split_ifs at h with hgate
    · split at h
      · cases h
      · next xp hxp =>
        split at h
        · cases h
        · next dip hdip =>
          split_ifs at h with hverdict
          · exact .inl ⟨xp, hxp, ⟨hgate.1, hgate.2, dip, hdip, hverdict⟩,
              (GreedyTurn.next.inj h).symm⟩
          · exact .inr ⟨some xp, dip, .inr hxp.symm, hverdict, (GreedyTurn.next.inj h).symm⟩
    · exact .inr ⟨s.xp, ungated, .inl rfl, by simp [ungated], (GreedyTurn.next.inj h).symm⟩

theorem exists_takesUp_of_next (h : greedyTurn math curve input working maxCount s = .next t) :
    ∃ k, TakesUp input working maxCount s k ∧
      s.takeBin math curve input working k |working.getD k 0| = .next t := by
  by_cases htakes : ∃ k, TakesUp input working maxCount s k
  · obtain ⟨k, hk⟩ := htakes
    exact ⟨k, hk, greedyTurn_of_takesUp hk ▸ h⟩
  · rw [greedyTurn_of_not_takesUp (not_exists.mp htakes)] at h
    cases h

/-! ### The loop ends -/

theorem count_blockHalo_le (fc q : K) (blocked : List Bool) :
    (blockHalo input fc q blocked).count false ≤ blocked.count false := by
  have hgen : ∀ (l : List Bool) (p : ℕ → Bool),
      (l.mapIdx fun k b => b || p k).count false ≤ l.count false := by
    intro l
    induction l with
    | nil => intro _; simp
    | cons b l ih =>
      intro p
      have hrest := ih fun k => p (k + 1)
      simp only [List.mapIdx_cons, List.count_cons]
      cases b <;> cases p 0 <;> simp <;> omega
  exact hgen blocked _

theorem count_set_lt {blocked : List Bool} {k : ℕ} (h : blocked.getD k true = false) :
    (blocked.set k true).count false < blocked.count false := by
  have hk : k < blocked.length := by
    by_contra hge
    rw [List.getD_eq_default _ _ (not_lt.mp hge)] at h
    cases h
  rw [List.getD_eq_getElem _ _ hk] at h
  have hpos : 0 < blocked.count false := List.count_pos_iff.mpr (h ▸ List.getElem_mem hk)
  rw [List.count_set hk]
  simp only [h, beq_self_eq_true, if_true, Bool.true_eq_false, beq_iff_eq, if_false]
  omega

/-- The bins still open and the slots still empty. -/
def GreedyState.remaining (maxCount : ℤ) (s : GreedyState K) : ℕ :=
  s.blocked.count false + (maxCount - s.placements.length).toNat

theorem remaining_lt (h : greedyTurn math curve input working maxCount s = .next t) :
    t.remaining maxCount < s.remaining maxCount := by
  obtain ⟨k, htakes, hnext⟩ := exists_takesUp_of_next h
  obtain ⟨⟨-, hopen, -⟩, -⟩ := open_of_takesUp htakes
  obtain ⟨q, -, ⟨xp, -, -, rfl⟩ | ⟨xp, dip, -, -, rfl⟩⟩ := takeBin_cases hnext
  · exact Nat.add_lt_add_right (count_set_lt hopen) _
  · have hcount : (blockHalo input (input.hz.getD k 0) q s.blocked).count false ≤
        s.blocked.count false := count_blockHalo_le _ q s.blocked
    have hroom := htakes.1
    simp only [GreedyState.remaining, GreedyState.place, List.length_append, List.length_cons,
      List.length_nil, Nat.cast_add, Nat.cast_one, Nat.cast_zero]
    omega

variable (math curve input working maxCount)

/-- The loop of `greedyPlace`. -/
def greedyFrom (s : GreedyState K) : Outcome (List (Placement K)) :=
  match _h : greedyTurn math curve input working maxCount s with
  | .done => .returned s.placements
  | .threw => .threw
  | .aborted => .aborted
  | .next t => greedyFrom t
termination_by s.remaining maxCount
decreasing_by exact remaining_lt _h

/-- `greedyPlace`. -/
def greedyPlace : Outcome (List (Placement K)) :=
  greedyFrom math curve input working maxCount (GreedyState.start input)

/-- The states of the loop. -/
def GreedyReaches : GreedyState K → GreedyState K → Prop :=
  Relation.ReflTransGen fun s t => greedyTurn math curve input working maxCount s = .next t

variable {math curve input working maxCount}

theorem greedyFrom_of_next (h : greedyTurn math curve input working maxCount s = .next t) :
    greedyFrom math curve input working maxCount s =
      greedyFrom math curve input working maxCount t := by
  rw [greedyFrom]
  split <;> simp_all

theorem greedyFrom_of_reaches (h : GreedyReaches math curve input working maxCount s t) :
    greedyFrom math curve input working maxCount s =
      greedyFrom math curve input working maxCount t := by
  induction h with
  | refl => rfl
  | tail _ hnext ih => exact ih.trans (greedyFrom_of_next hnext)

theorem exists_last (s : GreedyState K) :
    ∃ t, GreedyReaches math curve input working maxCount s t ∧
      ∀ u, greedyTurn math curve input working maxCount t ≠ .next u := by
  induction hn : s.remaining maxCount using Nat.strong_induction_on generalizing s with
  | _ n ih =>
    by_cases hlast : ∃ u, greedyTurn math curve input working maxCount s = .next u
    · obtain ⟨u, hu⟩ := hlast
      obtain ⟨t, hreach, ht⟩ := ih _ (hn ▸ remaining_lt hu) u rfl
      exact ⟨t, hreach.head hu, ht⟩
    · exact ⟨s, .refl, not_exists.mp hlast⟩

theorem exists_last_of_returned {s : GreedyState K} {ps : List (Placement K)}
    (h : greedyFrom math curve input working maxCount s = .returned ps) :
    ∃ t, GreedyReaches math curve input working maxCount s t ∧ t.placements = ps := by
  obtain ⟨t, hreach, hlast⟩ : ∃ t, GreedyReaches math curve input working maxCount s t ∧
      ∀ u, greedyTurn math curve input working maxCount t ≠ .next u := exists_last s
  rw [greedyFrom_of_reaches hreach, greedyFrom] at h
  split at h
  · exact ⟨t, hreach, Outcome.returned.inj h⟩
  · cases h
  · cases h
  · next u hu => exact absurd hu (hlast u)

theorem centre_of_reaches {s : GreedyState K}
    (h : GreedyReaches math curve input working maxCount (.start input) s) :
    ∀ p ∈ s.placements, ∃ k < input.hz.length, input.InPlay k ∧ p.spec.fcHz = input.hz.getD k 0 := by
  induction h with
  | refl =>
    intro p hp
    cases hp
  | tail _ hnext ih =>
    obtain ⟨k, htakes, htake⟩ := exists_takesUp_of_next hnext
    obtain ⟨q, -, ⟨xp, -, -, rfl⟩ | ⟨xp, dip, -, -, rfl⟩⟩ := takeBin_cases htake
    · exact ih
    · intro p hp
      obtain hp | rfl := List.mem_append.mp hp |>.imp_right List.mem_singleton.mp
      · exact ih p hp
      · exact ⟨k, htakes.2.1, (open_of_takesUp htakes).1.1, rfl⟩

/-! ### The two callers -/

variable (math curve input)

/-- `Candidate`. -/
structure Candidate (K : Type*) where
  spec : FilterSpec K
  scoreDb : K
  dip : DipClassification K

/-- `negated`. -/
def negated (values : List K) : List K := values.map fun v => -v

/-- The residual that `rankCandidates` and `autoEq` place on. -/
def placedResidual : List K := computeWorkingResidual input (autoOffsetDb input)

/-- `jointInput`, and `single` of `rankCandidates`. -/
def solveInput : EqInput K := { input with residualDb := negated (placedResidual input) }

/-- A candidate of a placement; `none` is an exception of `solveGains`. -/
def candidateOf (p : Placement K) : Option (Candidate K) :=
  (solveGains math [p.spec] (solveInput input)).map fun solved =>
    { spec := { p.spec with gainDb := solved.gainsDb.headD 0 }, scoreDb := p.scoreDb, dip := p.dip }

/-- `rankCandidates`. -/
def rankCandidates (maxCandidates : ℤ) : Outcome (List (Candidate K)) :=
  if ¬ input.Valid then .threw
  else
    match greedyPlace math curve input (placedResidual input) maxCandidates with
    | .threw => .threw
    | .aborted => .aborted
    | .returned placements =>
      match placements.mapM (candidateOf math input) with
      | none => .threw
      | some candidates => .returned candidates

/-- `autoEq`. -/
def autoEq : Outcome (List (FilterSpec K)) :=
  if ¬ input.Valid then .threw
  else
    match greedyPlace math curve input (placedResidual input) input.maxFilters with
    | .threw => .threw
    | .aborted => .aborted
    | .returned placements =>
      if placements = [] then .returned []
      else
        let placed := placements.map Placement.spec
        match solveGains math placed (solveInput input) with
        | none => .threw
        | some solved =>
          .returned (List.zipWith (fun spec gain => { spec with gainDb := gain }) placed solved.gainsDb)

variable {math curve input}

theorem mem_of_mapM {α β : Type*} {f : α → Option β} {l : List α} {l' : List β}
    (h : l.mapM f = some l') : ∀ b ∈ l', ∃ a ∈ l, f a = some b := by
  induction l generalizing l' with
  | nil =>
    obtain rfl := Option.some.inj h
    intro b hb
    cases hb
  | cons a l ih =>
    rw [List.mapM_cons] at h
    obtain ⟨b, hb, h⟩ := Option.bind_eq_some_iff.mp h
    obtain ⟨bs, hbs, h⟩ := Option.bind_eq_some_iff.mp h
    obtain rfl := Option.some.inj h
    intro c hc
    obtain rfl | hc := List.mem_cons.mp hc
    · exact ⟨a, List.mem_cons_self .., hb⟩
    · obtain ⟨a', ha', hfa'⟩ := ih hbs c hc
      exact ⟨a', List.mem_cons_of_mem a ha', hfa'⟩

/-- The centre is a bin that is in play. -/
def EqInput.CentredInPlay (input : EqInput K) (spec : FilterSpec K) : Prop :=
  ∃ k < input.hz.length, input.InPlay k ∧ spec.fcHz = input.hz.getD k 0

theorem centre_of_greedyPlace {ps : List (Placement K)}
    (h : greedyPlace math curve input working maxCount = .returned ps) :
    ∀ p ∈ ps, input.CentredInPlay p.spec := by
  obtain ⟨t, hreach, rfl⟩ := exists_last_of_returned h
  exact centre_of_reaches hreach

theorem centre_of_rankCandidates {maxCandidates : ℤ} {candidates : List (Candidate K)}
    (h : rankCandidates math curve input maxCandidates = .returned candidates) :
    ∀ c ∈ candidates, input.CentredInPlay c.spec := by
  rw [rankCandidates] at h
  split_ifs at h
  split at h
  · cases h
  · cases h
  · next ps hps =>
    split at h
    · cases h
    · next cs hcs =>
      obtain rfl := Outcome.returned.inj h
      intro c hc
      obtain ⟨p, hp, hcandidate⟩ := mem_of_mapM hcs c hc
      rw [candidateOf, Option.map_eq_some_iff] at hcandidate
      obtain ⟨solved, -, rfl⟩ := hcandidate
      exact centre_of_greedyPlace hps p hp

theorem centre_of_autoEq {specs : List (FilterSpec K)}
    (h : autoEq math curve input = .returned specs) : ∀ spec ∈ specs, input.CentredInPlay spec := by
  rw [autoEq] at h
  split_ifs at h
  split at h
  · cases h
  · cases h
  · next ps hps =>
    split_ifs at h
    · obtain rfl := Outcome.returned.inj h
      intro spec hspec
      cases hspec
    · dsimp only at h
      split at h
      · cases h
      · next solved hsolved =>
        obtain rfl := Outcome.returned.inj h
        intro spec hspec
        obtain ⟨i, hi, rfl⟩ := List.mem_iff_getElem.mp hspec
        rw [List.length_zipWith, lt_min_iff, List.length_map] at hi
        rw [List.getElem_zipWith, List.getElem_map]
        exact centre_of_greedyPlace hps _ (List.getElem_mem hi.1)

end AutoEq

end RtaTool
