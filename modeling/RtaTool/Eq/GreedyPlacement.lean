import RtaTool.Eq.EqAllocator

/-!
# What greedy placement promises

The placement contract of `EqAllocator.h`, over every run of the loop: how many filters it places and
in which order, where their centres are and how far apart, what their Q's lie between, and that a
boost the gate refuses takes no slot.

All of it rests on the clamp of Q. Its lower bound is `kQMin`, its upper one is read off the input,
and for a boost in a room with a decay time it falls with the centre frequency: it can be the smaller
of the two. The other way for a run not to come to its end is a half grid of a size that
`excessPhase` refuses.

## Main definitions

* `PlacedWell`, `PlacementContract` -- the contract
* `QRangeOpen`, `BinSafe` -- the bounds of the clamp are in order, and the gate can be asked

## Main results

* `LoopInv.next` -- what one turn preserves
* `placement_contract_iff` -- the contract holds exactly if every bin the loop takes up is safe
-/

namespace RtaTool

namespace AutoEq

variable {K : Type*} [Field K] [LinearOrder K]

/-! ### The contract -/

variable (math : MathFns K) (curve : ExcessCurve K) (input : EqInput K) (working : List K)
  (maxCount : ℤ)

/-- A placement of Q `q` at the bin `k`. -/
structure PlacedAt (p : Placement K) (k : ℕ) : Prop where
  lt : k < input.hz.length
  inPlay : input.InPlay k
  centre : p.spec.fcHz = input.hz.getD k 0
  pos : 0 < p.spec.fcHz
  belowNyquist : p.spec.fcHz < input.sampleRate / 2
  score : p.scoreDb = |working.getD k 0|
  clamped : qAt math input working k = some p.spec.q
  le_q : kQMin ≤ p.spec.q
  q_le : p.spec.q ≤ qMaxAt math input working k

/-- Half the bandwidth of a filter, `fc / (2 * q)`. -/
def FilterSpec.halfBandwidthHz (spec : FilterSpec K) : K := spec.fcHz / (2 * spec.q)

/-- The contract on what is placed. -/
structure PlacedWell (ps : List (Placement K)) : Prop where
  count : ps.length ≤ maxCount.toNat
  at_bin : ∀ p ∈ ps, ∃ k, PlacedAt math input working p k
  scores : ps.Pairwise fun a b => b.scoreDb ≤ a.scoreDb
  apart : ps.Pairwise fun a b => a.spec.halfBandwidthHz < |b.spec.fcHz - a.spec.fcHz|
  boostable : ∀ p ∈ ps, p.dip.verdict ≠ .notMinimumPhase

/-- The placement contract: the loop is left with placements that are well placed; every Q it works
out is a clamp's, between the clamp's bounds; and a turn whose boost is refused leaves the
placements as they were. -/
structure PlacementContract : Prop where
  returns : ∃ ps, greedyPlace math curve input (placedResidual input) maxCount = .returned ps ∧
    PlacedWell math input (placedResidual input) maxCount ps
  clamped : ∀ s k,
    GreedyReaches math curve input (placedResidual input) maxCount (.start input) s →
    TakesUp input (placedResidual input) maxCount s k →
    ∃ q, qAt math input (placedResidual input) k = some q ∧
      kQMin ≤ q ∧ q ≤ qMaxAt math input (placedResidual input) k
  refused : ∀ s k xp,
    GreedyReaches math curve input (placedResidual input) maxCount (.start input) s →
    TakesUp input (placedResidual input) maxCount s k →
    computeExcessPhase math curve input = some xp →
    Refused math curve input (placedResidual input) k xp →
    ∃ t, greedyTurn math curve input (placedResidual input) maxCount s = .next t ∧
      t.placements = s.placements

/-! ### Safe bins -/

/-- The bound on Q at the bin is not below `kQMin`. -/
def QRangeOpen (k : ℕ) : Prop :=
  if IsBoost working k then
    match input.roomT60Sec with
    | none => kQMin ≤ input.qMaxBoost
    | some t60 =>
      kQMin ≤ t60 * input.hz.getD k 0 / (11 / 5 * math.pow10 (input.gCapDb / 40)) ∧
        kQMin ≤ input.qMaxBoost * 4
  else kQMin ≤ input.qMaxCut

/-- Taking up the bin is safe: its Q has a range, and the gate, if it is to be asked about a boost,
has a half grid of a size that `excessPhase` takes. -/
def BinSafe (k : ℕ) : Prop :=
  QRangeOpen math input working k ∧
    (IsBoost working k → GateAvailable input → IsHalfGridSize input.hz.length)

variable {math curve input working maxCount}

theorem qRangeOpen_iff {k : ℕ} (hpos : 0 < input.hz.getD k 0) :
    QRangeOpen math input working k ↔ kQMin ≤ qMaxAt math input working k := by
  rw [QRangeOpen, qMaxAt]
  split_ifs with hboost
  · rw [tiedQMaxBoost.eq_def]
    cases input.roomT60Sec with
    | none => rfl
    | some t60 => simp only [if_pos hpos, le_min_iff]
  · rfl

theorem flankRight_lt {k : ℕ} (hlength : working.length = input.hz.length)
    (hk : k < input.hz.length) : flankRight working k < input.hz.length := by
  have := (walkUp_bounds working (signAt working k) (working.length - 1 - k) k).2
  rw [flankRight]
  omega

theorem computeExcessPhase_isSome_iff (hvalid : input.Valid) (hgate : GateAvailable input) :
    (computeExcessPhase math curve input).isSome ↔ IsHalfGridSize input.hz.length := by
  rw [computeExcessPhase, excessPhase_isSome_iff, List.length_map, hgate.2]
  · rw [List.length_map]
  · rw [List.length_map, hgate.2, hvalid.trusted]
  · exact hvalid.sampleRate

/-- The gate never throws at a bin of the grid. -/
theorem gate_isSome {xp : ExcessPhaseResult K} {k : ℕ} (hgate : GateAvailable input)
    (hxp : computeExcessPhase math curve input = some xp)
    (hlength : working.length = input.hz.length) (hk : k < input.hz.length) :
    (gate math input working xp k).isSome := by
  refine classifyDip_isSome math hlength.symm (walkDown_le _ _ _) (walkUp_bounds _ _ _ _).1
    (flankRight_lt hlength hk) fun hvalid => ?_
  rw [length_of_excessPhase curve hxp hvalid, List.length_map, hgate.2]

/-! ### The excess phase is worked out once -/

theorem xp_of_reaches {s : GreedyState K}
    (h : GreedyReaches math curve input working maxCount (.start input) s) :
    s.xp.or (computeExcessPhase math curve input) = computeExcessPhase math curve input := by
  induction h with
  | refl => rfl
  | tail _ hnext ih =>
    obtain ⟨k, -, htake⟩ := exists_takesUp_of_next hnext
    obtain ⟨q, -, ⟨xp, hxp, -, rfl⟩ | ⟨xp, dip, hxp, -, rfl⟩⟩ := takeBin_cases htake
    · rw [GreedyState.refuse, ← hxp, ih]
      cases computeExcessPhase math curve input <;> rfl
    · obtain rfl | rfl := hxp
      · exact ih
      · rw [GreedyState.place, ih]
        cases computeExcessPhase math curve input <;> rfl

/-! ### What a turn preserves -/

theorem getD_blockHalo (fc q : K) (blocked : List Bool) (k : ℕ) :
    (blockHalo input fc q blocked).getD k true =
      (blocked.getD k true || decide (|input.hz.getD k 0 - fc| ≤ fc / (2 * q))) := by
  rw [blockHalo, List.getD_eq_getElem?_getD, List.getD_eq_getElem?_getD, List.getElem?_mapIdx]
  cases blocked[k]? <;> simp

theorem getD_set_true (blocked : List Bool) (j k : ℕ) (h : (blocked.set j true).getD k true = false) :
    blocked.getD k true = false := by
  rw [List.getD_eq_getElem?_getD, List.getElem?_set] at h
  rw [List.getD_eq_getElem?_getD]
  split_ifs at h
  all_goals first | exact h | simp at h

/-- What the loop has done so far: well placed filters, whose halos are closed, and no open bin with
a larger residual than any of them. -/
structure LoopInv (math : MathFns K) (input : EqInput K) (working : List K) (maxCount : ℤ)
    (s : GreedyState K) : Prop where
  placed : PlacedWell math input working maxCount s.placements
  halos : ∀ p ∈ s.placements, ∀ k, s.blocked.getD k true = false →
    p.spec.halfBandwidthHz < |input.hz.getD k 0 - p.spec.fcHz|
  below : ∀ p ∈ s.placements, ∀ k < input.hz.length, input.Open s.blocked k →
    |working.getD k 0| ≤ p.scoreDb

theorem LoopInv.start : LoopInv math input working maxCount (.start input) where
  placed :=
    { count := Nat.zero_le _
      at_bin := by intro p hp; cases hp
      scores := .nil
      apart := .nil
      boostable := by intro p hp; cases hp }
  halos := by intro p hp; cases hp
  below := by intro p hp; cases hp

namespace LoopInv

variable {s : GreedyState K}

section

variable (h : LoopInv math input working maxCount s)

include h

/-- Closing bins keeps the invariant. -/
theorem close {t : GreedyState K} (hplacements : t.placements = s.placements)
    (hblocked : ∀ k, t.blocked.getD k true = false → s.blocked.getD k true = false) :
    LoopInv math input working maxCount t where
  placed := hplacements ▸ h.placed
  halos p hp k hk := h.halos p (hplacements ▸ hp) k (hblocked k hk)
  below p hp k hk hopen :=
    h.below p (hplacements ▸ hp) k hk ⟨hopen.1, hblocked k hopen.2.1, hopen.2.2⟩

theorem place {k : ℕ} {q : K}
    {dip : DipClassification K} (htakes : TakesUp input working maxCount s k)
    (hclamped : qAt math input working k = some q) (hlow : kQMin ≤ q)
    (hhigh : q ≤ qMaxAt math input working k) (hdip : dip.verdict ≠ .notMinimumPhase) :
    LoopInv math input working maxCount (s.place input k |working.getD k 0| q dip) := by
  obtain ⟨hopen, -, hlargest⟩ := open_of_takesUp htakes
  obtain ⟨hplay, hclear, hpos, hnyquist⟩ := hopen
  have hhalo : ∀ j, (blockHalo input (input.hz.getD k 0) q s.blocked).getD j true = false →
      s.blocked.getD j true = false ∧
        input.hz.getD k 0 / (2 * q) < |input.hz.getD j 0 - input.hz.getD k 0| := by
    intro j hj
    rw [getD_blockHalo, Bool.or_eq_false_iff, decide_eq_false_iff_not, not_le] at hj
    exact hj
  constructor
  · constructor
    · have hroom := htakes.1
      simp only [GreedyState.place, List.length_append, List.length_cons, List.length_nil]
      omega
    · intro p hp
      obtain hp | rfl := List.mem_append.mp hp |>.imp_right List.mem_singleton.mp
      · exact h.placed.at_bin p hp
      · exact ⟨k, htakes.2.1, hplay, rfl, hpos, hnyquist, rfl, hclamped, hlow, hhigh⟩
    · refine List.pairwise_append.mpr ⟨h.placed.scores, List.pairwise_singleton _ _, ?_⟩
      intro a ha b hb
      rw [List.mem_singleton.mp hb]
      exact h.below a ha k htakes.2.1 ⟨hplay, hclear, hpos, hnyquist⟩
    · refine List.pairwise_append.mpr ⟨h.placed.apart, List.pairwise_singleton _ _, ?_⟩
      intro a ha b hb
      rw [List.mem_singleton.mp hb]
      exact h.halos a ha k hclear
    · intro p hp
      obtain hp | rfl := List.mem_append.mp hp |>.imp_right List.mem_singleton.mp
      · exact h.placed.boostable p hp
      · exact hdip
  · intro p hp j hj
    obtain hp | rfl := List.mem_append.mp hp |>.imp_right List.mem_singleton.mp
    · exact h.halos p hp j (hhalo j hj).1
    · exact (hhalo j hj).2
  · intro p hp j hj hopen
    have hopen' : input.Open s.blocked j := ⟨hopen.1, (hhalo j hopen.2.1).1, hopen.2.2⟩
    obtain hp | rfl := List.mem_append.mp hp |>.imp_right List.mem_singleton.mp
    · exact h.below p hp j hj hopen'
    · exact hlargest j hj hopen'

/-- **Headline.** One turn: a bin with a range for its Q keeps the invariant. -/
theorem next {t : GreedyState K} (hnext : greedyTurn math curve input working maxCount s = .next t)
    (hrange : ∀ k, TakesUp input working maxCount s k → QRangeOpen math input working k) :
    LoopInv math input working maxCount t := by
  obtain ⟨k, htakes, htake⟩ := exists_takesUp_of_next hnext
  obtain ⟨⟨-, -, hpos, -⟩, -⟩ := open_of_takesUp htakes
  obtain ⟨q, hq, ⟨xp, -, -, rfl⟩ | ⟨xp, dip, -, hdip, rfl⟩⟩ := takeBin_cases htake
  · exact h.close rfl (getD_set_true s.blocked k)
  · obtain ⟨q', hq', hlow, hhigh⟩ := stdClamp_mem math ((qRangeOpen_iff hpos).mp (hrange k htakes))
    obtain rfl := Option.some.inj (hq.symm.trans hq')
    exact (h.close (t := { s with xp := xp }) rfl fun _ hk => hk).place htakes hq hlow hhigh hdip

end

theorem of_reaches (hreach : GreedyReaches math curve input working maxCount (.start input) s)
    (hrange : ∀ s k, GreedyReaches math curve input working maxCount (.start input) s →
      TakesUp input working maxCount s k → QRangeOpen math input working k) :
    LoopInv math input working maxCount s := by
  induction hreach with
  | refl => exact start
  | tail hreach hnext ih => exact ih.next hnext fun k => hrange _ k hreach

end LoopInv

variable {s : GreedyState K} {k : ℕ}

theorem exists_next_of_safe (hvalid : input.Valid) (hlength : working.length = input.hz.length)
    (hreach : GreedyReaches math curve input working maxCount (.start input) s)
    (htakes : TakesUp input working maxCount s k) (hsafe : BinSafe math input working k) :
    ∃ t, greedyTurn math curve input working maxCount s = .next t := by
  obtain ⟨⟨-, -, hpos, -⟩, -⟩ := open_of_takesUp htakes
  obtain ⟨q, hq, -⟩ := stdClamp_mem math ((qRangeOpen_iff hpos).mp hsafe.1)
  replace hq : qAt math input working k = some q := hq
  rw [greedyTurn_of_takesUp htakes, GreedyState.takeBin.eq_def, hq]
  dsimp only
  split_ifs with hgate
  · have hsome : (computeExcessPhase math curve input).isSome :=
      (computeExcessPhase_isSome_iff hvalid hgate.2).mpr (hsafe.2 hgate.1 hgate.2)
    obtain ⟨xp, hxp⟩ := Option.isSome_iff_exists.mp hsome
    obtain ⟨dip, hdip⟩ :=
      Option.isSome_iff_exists.mp (gate_isSome hgate.2 hxp hlength htakes.2.1)
    rw [xp_of_reaches hreach, hxp]
    dsimp only
    rw [hdip]
    dsimp only
    split_ifs
    · exact ⟨_, rfl⟩
    · exact ⟨_, rfl⟩
  · exact ⟨_, rfl⟩

theorem greedyPlace_of_safe (hvalid : input.Valid) (hlength : working.length = input.hz.length)
    (hsafe : ∀ s k, GreedyReaches math curve input working maxCount (.start input) s →
      TakesUp input working maxCount s k → BinSafe math input working k) :
    ∃ ps, greedyPlace math curve input working maxCount = .returned ps ∧
      PlacedWell math input working maxCount ps := by
  obtain ⟨t, hreach, hlast⟩ : ∃ t, GreedyReaches math curve input working maxCount (.start input) t ∧
      ∀ u, greedyTurn math curve input working maxCount t ≠ .next u := exists_last _
  have hnone : ∀ k, ¬ TakesUp input working maxCount t k := by
    intro k htakes
    obtain ⟨u, hu⟩ := exists_next_of_safe hvalid hlength hreach htakes (hsafe t k hreach htakes)
    exact hlast u hu
  refine ⟨t.placements, ?_, (LoopInv.of_reaches hreach fun s k h ht => (hsafe s k h ht).1).placed⟩
  rw [greedyPlace, greedyFrom_of_reaches hreach, greedyFrom]
  have hdone : greedyTurn math curve input working maxCount t = .done :=
    greedyTurn_of_not_takesUp hnone
  split <;> simp_all

@[simp] theorem length_placedResidual : (placedResidual input).length = input.hz.length := by
  simp [placedResidual, computeWorkingResidual]

theorem greedyTurn_eq_refuse {xp : ExcessPhaseResult K} {q : K}
    (hreach : GreedyReaches math curve input working maxCount (.start input) s)
    (htakes : TakesUp input working maxCount s k) (hq : qAt math input working k = some q)
    (hxp : computeExcessPhase math curve input = some xp)
    (hrefused : Refused math curve input working k xp) :
    greedyTurn math curve input working maxCount s = .next (s.refuse k xp) := by
  obtain ⟨hboost, hgate, dip, hdip, hverdict⟩ := hrefused
  rw [greedyTurn_of_takesUp htakes, GreedyState.takeBin.eq_def, hq]
  dsimp only
  rw [if_pos ⟨hboost, hgate⟩, xp_of_reaches hreach, hxp]
  dsimp only
  rw [hdip]
  exact if_pos hverdict

theorem greedyTurn_eq_threw {q : K} (hvalid : input.Valid)
    (hreach : GreedyReaches math curve input working maxCount (.start input) s)
    (htakes : TakesUp input working maxCount s k) (hq : qAt math input working k = some q)
    (hboost : IsBoost working k) (hgate : GateAvailable input)
    (hsize : ¬ IsHalfGridSize input.hz.length) :
    greedyTurn math curve input working maxCount s = .threw := by
  have hxp : computeExcessPhase math curve input = none := by
    rw [← Option.not_isSome_iff_eq_none, computeExcessPhase_isSome_iff hvalid hgate]
    exact hsize
  rw [greedyTurn_of_takesUp htakes, GreedyState.takeBin.eq_def, hq]
  dsimp only
  rw [if_pos ⟨hboost, hgate⟩, xp_of_reaches hreach, hxp]

/-- **Headline.** Greedy placement keeps its contract exactly if every bin the loop takes up is
safe: the bound on its Q is not below `kQMin`, and a boost that is to be gated has a half grid of a
size that `excessPhase` takes. -/
theorem placement_contract_iff (math : MathFns K) (curve : ExcessCurve K) (input : EqInput K)
    (maxCount : ℤ) (hvalid : input.Valid) :
    PlacementContract math curve input maxCount ↔
      ∀ s k, GreedyReaches math curve input (placedResidual input) maxCount (.start input) s →
        TakesUp input (placedResidual input) maxCount s k →
        BinSafe math input (placedResidual input) k := by
  constructor
  · rintro ⟨⟨ps, hreturned, -⟩, hclamped, -⟩ s k hreach htakes
    obtain ⟨⟨-, -, hpos, -⟩, -⟩ := open_of_takesUp htakes
    obtain ⟨q, hq, hlow, hhigh⟩ := hclamped s k hreach htakes
    refine ⟨(qRangeOpen_iff hpos).mpr (hlow.trans hhigh), fun hboost hgate => ?_⟩
    by_contra hsize
    have hthrew := greedyTurn_eq_threw hvalid hreach htakes hq hboost hgate hsize
    rw [greedyPlace, greedyFrom_of_reaches hreach, greedyFrom] at hreturned
    split at hreturned <;> simp_all
  · intro hsafe
    have hclamped : ∀ s k,
        GreedyReaches math curve input (placedResidual input) maxCount (.start input) s →
        TakesUp input (placedResidual input) maxCount s k →
        ∃ q, qAt math input (placedResidual input) k = some q ∧
          kQMin ≤ q ∧ q ≤ qMaxAt math input (placedResidual input) k := by
      intro s k hreach htakes
      obtain ⟨⟨-, -, hpos, -⟩, -⟩ := open_of_takesUp htakes
      exact stdClamp_mem math ((qRangeOpen_iff hpos).mp (hsafe s k hreach htakes).1)
    refine ⟨greedyPlace_of_safe hvalid length_placedResidual hsafe, hclamped, ?_⟩
    intro s k xp hreach htakes hxp hrefused
    obtain ⟨q, hq, -⟩ := hclamped s k hreach htakes
    exact ⟨_, greedyTurn_eq_refuse hreach htakes hq hxp hrefused, rfl⟩

/-- A dip at 6 Hz between two bins on target, in a room with a decay time of 0.1 s. -/
noncomputable def dryRoomInput : EqInput ℝ where
  hz := [3, 6, 9]
  residualDb := [0, -12, 0]
  coherence := [1, 1, 1]
  trusted := [true, true, true]
  excluded := [false, false, false]
  sampleRate := 48000
  maxFilters := 6
  gCapDb := 6
  qMaxBoost := 10
  qMaxCut := 20
  roomT60Sec := some (1 / 10)
  hHalfGrid := []

theorem dryRoomInput_valid : dryRoomInput.Valid where
  residualDb := rfl
  coherence := rfl
  trusted := rfl
  excluded := rfl
  sampleRate := by norm_num [dryRoomInput]

theorem placedResidual_dryRoomInput : placedResidual dryRoomInput = [36 / 11, -96 / 11, 36 / 11] := by
  norm_num [placedResidual, computeWorkingResidual, autoOffsetDb, EqInput.weight, EqInput.InPlay,
    dryRoomInput, List.range_succ]

/-- The bound on the Q of a boost at 6 Hz is below 0.3. -/
theorem placement_contract_dryRoom :
    ¬ PlacementContract realMath (fun _ _ _ _ _ => 0) dryRoomInput 6 := by
  rintro ⟨-, hclamped, -⟩
  have htakes : TakesUp dryRoomInput (placedResidual dryRoomInput) 6 (.start dryRoomInput) 1 := by
    rw [placedResidual_dryRoomInput]
    norm_num [TakesUp, bestBin, searchBin, EqInput.Open, EqInput.InPlay, dryRoomInput,
      GreedyState.start, List.range_succ, kMinPlacementDb, abs_of_pos, abs_of_neg]
  obtain ⟨q, -, hlow, hhigh⟩ := hclamped _ 1 .refl htakes
  have hgain : (1 : ℝ) ≤ 10 ^ ((3 : ℝ) / 20) := Real.one_le_rpow (by norm_num) (by norm_num)
  have hbound : qMaxAt realMath dryRoomInput (placedResidual dryRoomInput) 1 < 3 / 10 := by
    rw [placedResidual_dryRoomInput]
    simp only [qMaxAt, IsBoost, tiedQMaxBoost, dryRoomInput, realMath]
    norm_num
    rw [div_lt_iff₀ (by positivity)]
    linarith
  rw [kQMin] at hlow
  linarith

/-- Without a decay time the same dip is within the contract. -/
theorem placement_contract_noDecayTime :
    { dryRoomInput with roomT60Sec := none }.Valid ∧
      PlacementContract realMath (fun _ _ _ _ _ => 0) { dryRoomInput with roomT60Sec := none } 6 := by
  have hvalid : { dryRoomInput with roomT60Sec := none }.Valid :=
    ⟨rfl, rfl, rfl, rfl, dryRoomInput_valid.sampleRate⟩
  refine ⟨hvalid, (placement_contract_iff _ _ _ _ hvalid).mpr fun s k _ _ => ⟨?_, ?_⟩⟩
  · rw [QRangeOpen]
    split_ifs <;> norm_num [dryRoomInput, kQMin]
  · intro _ hgate
    exact absurd rfl hgate.1

end AutoEq

end RtaTool
