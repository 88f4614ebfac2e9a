import RtaTool.Lib.ChangeLatch
import RtaTool.Lib.Machine
import RtaTool.Measure.SplAlarm

/-!
# Alarms that share a history

Several alarms are updated one after another, each time with some list of blocks, and write their
markers to one history. An update is three things at once: the latch is given the level of a full
window and may change, the state is promoted out of filling when a full window first has a level,
and a change is written down as a marker, or counted once the history has no room.

The invariant ties them to one list, the levels that an alarm's full windows have had. The latch
holds the verdict on the last of them, the state says whether there has been one and which way it
went, and the transitions are the changes of the verdict.

The calls are kept with what the latch was given and what it answered; no operation reads them.

## Main definitions

* `SplAlarm.forLatch`, `SplAlarm.transitionOf` -- what an update gives the latch, and its answer
* `AlarmRun`, `AlarmUpdate`, `alarmRuns` -- the machine
* `SplAlarm.Settled` -- an alarm is what its levels have made of it

## Main results

* `SplAlarm.Settled.update` -- one update
* `alarmRuns_spec` -- every run
-/

namespace RtaTool

/-! ### One update -/

namespace SplAlarm

/-- What an update gives the latch: the window's reading if the window is full. -/
def forLatch (db : Decibels) (ctx : AlarmContext) (alarm : SplAlarm) (blocks : List Block) :
    WindowResult :=
  let take := min alarm.spec.windowBlocks blocks.length
  if take = alarm.spec.windowBlocks then
    combineBlocks db (blocks.drop (blocks.length - take)) ctx.sampleRate ctx.referenceOffsetDb
  else {}

/-- What the latch answers. -/
def transitionOf (db : Decibels) (ctx : AlarmContext) (alarm : SplAlarm) (blocks : List Block) :
    Transition :=
  (alarm.latch.update (alarm.forLatch db ctx blocks) alarm.spec.limitDb).1

/-- The verdicts on some levels: over the limit or not. -/
def verdicts (alarm : SplAlarm) (levels : List ℚ) : List Bool :=
  levels.map fun level => decide (alarm.spec.limitDb < level)

/-- The verdict the latch holds after some levels. -/
def held (alarm : SplAlarm) (levels : List ℚ) : Bool := heldVerdict false (alarm.verdicts levels)

/-- An alarm whose full windows have had these levels. -/
structure Settled (alarm : SplAlarm) (levels : List ℚ) : Prop where
  latch : alarm.latch.active = alarm.held levels
  windowEverFull : alarm.windowEverFull = !levels.isEmpty
  state : alarm.state =
    if levels = [] then .filling else if alarm.held levels then .fired else .clear

end SplAlarm

/-- The transition that reports a verdict. -/
def Transition.ofVerdict (isOver : Bool) : Transition := if isOver then .fired else .cleared

theorem Transition.ofVerdict_ne_none (isOver : Bool) : Transition.ofVerdict isOver ≠ .none := by
  cases isOver with
  | false => simp [Transition.ofVerdict]
  | true => simp [Transition.ofVerdict]

namespace SplAlarm

variable {db : Decibels} {ctx : AlarmContext} {alarm : SplAlarm} {blocks : List Block}
  {levels : List ℚ} {level : ℚ}

theorem verdicts_concat (alarm : SplAlarm) (levels : List ℚ) (level : ℚ) :
    alarm.verdicts (levels ++ [level]) =
      alarm.verdicts levels ++ [decide (alarm.spec.limitDb < level)] :=
  List.map_append ..

@[simp] theorem held_concat (alarm : SplAlarm) (levels : List ℚ) (level : ℚ) :
    alarm.held (levels ++ [level]) = decide (alarm.spec.limitDb < level) := by
  rw [held, verdicts_concat, heldVerdict_concat]

variable {windowed : WindowResult}

theorem Settled.latch_update (h : alarm.Settled levels) (hleq : windowed.leqDb = some level) :
    alarm.latch.update windowed alarm.spec.limitDb =
      if decide (alarm.spec.limitDb < level) = alarm.held levels then (.none, alarm.latch)
      else (.ofVerdict (decide (alarm.spec.limitDb < level)),
        ⟨decide (alarm.spec.limitDb < level)⟩) := by
  rw [AlarmLatch.update, hleq, ← h.latch]
  rfl

theorem latch_update_of_none {latch : AlarmLatch} {limitDb : ℚ}
    (hleq : windowed.leqDb = none) : latch.update windowed limitDb = (.none, latch) := by
  rw [AlarmLatch.update, hleq]

theorem forLatch_of_short (h : min alarm.spec.windowBlocks blocks.length ≠
    alarm.spec.windowBlocks) : alarm.forLatch db ctx blocks = {} :=
  if_neg h

theorem forLatch_of_full (h : min alarm.spec.windowBlocks blocks.length =
    alarm.spec.windowBlocks) :
    alarm.forLatch db ctx blocks =
      combineBlocks db (blocks.drop (blocks.length - min alarm.spec.windowBlocks blocks.length))
        ctx.sampleRate ctx.referenceOffsetDb :=
  if_pos h

section

variable (db : Decibels) (ctx : AlarmContext) (alarm : SplAlarm) (blocks : List Block)

theorem update_latch :
    (alarm.update db ctx blocks).1.latch =
      (alarm.latch.update (alarm.forLatch db ctx blocks) alarm.spec.limitDb).2 := by
  by_cases hfull : min alarm.spec.windowBlocks blocks.length = alarm.spec.windowBlocks
  · rw [forLatch_of_full hfull]
    simp only [SplAlarm.update, decide_eq_true hfull, if_true]
  · rw [forLatch_of_short hfull]
    simp only [SplAlarm.update, decide_eq_false hfull]
    rfl

theorem update_windowEverFull :
    (alarm.update db ctx blocks).1.windowEverFull =
      (alarm.windowEverFull || (alarm.forLatch db ctx blocks).leqDb.isSome) := by
  by_cases hfull : min alarm.spec.windowBlocks blocks.length = alarm.spec.windowBlocks
  · rw [forLatch_of_full hfull]
    simp only [SplAlarm.update, decide_eq_true hfull, Bool.true_and]
    cases alarm.windowEverFull with
    | false => rfl
    | true => rfl
  · rw [forLatch_of_short hfull]
    simp only [SplAlarm.update, decide_eq_false hfull]
    rfl

end

theorem update_state_of_none (h : alarm.transitionOf db ctx blocks = .none) :
    (alarm.update db ctx blocks).1.state =
      if !alarm.windowEverFull && (alarm.forLatch db ctx blocks).leqDb.isSome then .clear
      else alarm.state := by
  by_cases hfull : min alarm.spec.windowBlocks blocks.length = alarm.spec.windowBlocks
  · rw [transitionOf, forLatch_of_full hfull] at h
    rw [forLatch_of_full hfull]
    simp only [SplAlarm.update, decide_eq_true hfull, if_true, h, Bool.true_and,
      decide_true, Bool.and_true]
  · rw [forLatch_of_short hfull]
    simp only [SplAlarm.update, decide_eq_false hfull, Option.isSome_none, Bool.and_false,
      Bool.false_and]
    rw [if_neg Bool.false_ne_true, latch_update_of_none rfl]

theorem update_state_of_ofVerdict {isOver : Bool}
    (h : alarm.transitionOf db ctx blocks = .ofVerdict isOver) :
    (alarm.update db ctx blocks).1.state = if isOver then .fired else .clear := by
  by_cases hfull : min alarm.spec.windowBlocks blocks.length = alarm.spec.windowBlocks
  · rw [transitionOf, forLatch_of_full hfull] at h
    simp only [SplAlarm.update, decide_eq_true hfull, if_true, h]
    cases isOver with
    | false => rfl
    | true => rfl
  · rw [transitionOf, forLatch_of_short hfull, latch_update_of_none rfl] at h
    exact absurd h.symm (Transition.ofVerdict_ne_none isOver)

theorem Settled.update_of_none (h : alarm.Settled levels)
    (hleq : (alarm.forLatch db ctx blocks).leqDb = none) :
    alarm.transitionOf db ctx blocks = .none ∧ (alarm.update db ctx blocks).1.Settled levels := by
  have htransition : alarm.transitionOf db ctx blocks = .none := by
    rw [transitionOf, latch_update_of_none hleq]
  refine ⟨htransition, ?_, ?_, ?_⟩
  · rw [update_latch, latch_update_of_none hleq]
    exact h.latch
  · rw [update_windowEverFull, hleq, Option.isSome_none, Bool.or_false]
    exact h.windowEverFull
  · rw [update_state_of_none htransition, hleq, Option.isSome_none, Bool.and_false,
      if_neg Bool.false_ne_true]
    exact h.state

theorem Settled.update_of_some (h : alarm.Settled levels)
    (hleq : (alarm.forLatch db ctx blocks).leqDb = some level) :
    alarm.transitionOf db ctx blocks =
      (if decide (alarm.spec.limitDb < level) = alarm.held levels then .none
        else .ofVerdict (decide (alarm.spec.limitDb < level))) ∧
    (alarm.update db ctx blocks).1.Settled (levels ++ [level]) := by
  have hlatch := h.latch_update hleq
  have hever : (alarm.update db ctx blocks).1.windowEverFull = !(levels ++ [level]).isEmpty := by
    rw [update_windowEverFull, hleq, Option.isSome_some, Bool.or_true]
    simp
  have hne : levels ++ [level] ≠ [] := by
    simp
  by_cases hsame : decide (alarm.spec.limitDb < level) = alarm.held levels
  · rw [if_pos hsame] at hlatch ⊢
    have htransition : alarm.transitionOf db ctx blocks = .none := by
      rw [transitionOf, hlatch]
    refine ⟨htransition, ?_, hever, ?_⟩
    · rw [update_latch, hlatch, h.latch, ← hsame]
      exact (held_concat alarm levels level).symm
    · -- the first level promotes the state; afterwards it stands as it was
      rw [update_state_of_none htransition, hleq, Option.isSome_some, Bool.and_true,
        h.windowEverFull, Bool.not_not, h.state, if_neg hne]
      change _ = if alarm.held (levels ++ [level]) then _ else _
      rw [held_concat, hsame]
      by_cases hempty : levels = []
      · rw [hempty, if_pos (by rfl), if_neg]
        exact Bool.false_ne_true
      · rw [List.isEmpty_eq_false_iff.mpr hempty, if_neg Bool.false_ne_true, if_neg hempty]
  · rw [if_neg hsame] at hlatch ⊢
    have htransition : alarm.transitionOf db ctx blocks =
        .ofVerdict (decide (alarm.spec.limitDb < level)) := by
      rw [transitionOf, hlatch]
    refine ⟨htransition, ?_, hever, ?_⟩
    · rw [update_latch, hlatch]
      exact (held_concat alarm levels level).symm
    · rw [update_state_of_ofVerdict htransition, if_neg hne]
      change _ = if alarm.held (levels ++ [level]) then _ else _
      rw [held_concat]

/-- The marker of an update: none without a transition, and otherwise one with the level the latch
was given. -/
theorem update_marker_of_none (h : alarm.transitionOf db ctx blocks = .none) :
    (alarm.update db ctx blocks).2 = none := by
  by_cases hfull : min alarm.spec.windowBlocks blocks.length = alarm.spec.windowBlocks
  · rw [transitionOf, forLatch_of_full hfull] at h
    simp only [SplAlarm.update, decide_eq_true hfull, if_true, h]
  · simp only [SplAlarm.update, decide_eq_false hfull]
    rw [if_neg Bool.false_ne_true, latch_update_of_none rfl, if_pos rfl]

theorem update_marker_of_ne_none (h : alarm.transitionOf db ctx blocks ≠ .none) :
    ∃ marker, (alarm.update db ctx blocks).2 = some marker ∧
      marker.blockIndex = ctx.currentBlockIndex ∧
      (alarm.forLatch db ctx blocks).leqDb = some marker.value ∧
      marker.direction = (if alarm.transitionOf db ctx blocks = .fired then 1 else -1) ∧
      marker.quantity = markerQuantity alarm.spec.metricId ∧
      marker.metricIndex = alarm.metricIndex ∧ marker.window = alarm.spec.windowBlocks := by
  have hsome : (alarm.forLatch db ctx blocks).leqDb ≠ none := by
    intro hleq
    exact h (by rw [transitionOf, latch_update_of_none hleq])
  obtain ⟨level, hlevel⟩ := Option.ne_none_iff_exists'.mp hsome
  by_cases hfull : min alarm.spec.windowBlocks blocks.length = alarm.spec.windowBlocks
  · rw [transitionOf, forLatch_of_full hfull] at h ⊢
    rw [forLatch_of_full hfull] at hlevel
    simp only [SplAlarm.update, decide_eq_true hfull, if_true, hlevel, Option.getD_some]
    rw [if_neg h]
    exact ⟨_, rfl, rfl, rfl, rfl, rfl, rfl, rfl⟩
  · rw [forLatch_of_short hfull] at hlevel
    exact absurd hlevel (by simp)

end SplAlarm

/-! ### The store of markers -/

/-- Of all the markers it was given, the history has those there was room for, and the count of the
others. -/
structure SplHistory.Stores (h : SplHistory) (all : List SplMarker) : Prop where
  markers : h.markers = all.take kMaxMarkers
  overflowedMarkers : h.overflowedMarkers = all.length - kMaxMarkers

theorem SplHistory.Stores.addMarker {h : SplHistory} {all : List SplMarker} (hs : h.Stores all)
    (marker : SplMarker) : (h.addMarker marker).Stores (all ++ [marker]) := by
  have hlength : h.markers.length = min kMaxMarkers all.length := by
    rw [hs.markers, List.length_take]
  rw [SplHistory.addMarker]
  split_ifs with hfull
  · constructor
    · rw [List.take_append_of_le_length (by omega)]
      exact hs.markers
    · rw [List.length_append, List.length_singleton]
      dsimp only
      rw [hs.overflowedMarkers]
      omega
  · constructor
    · dsimp only
      rw [hs.markers, List.take_of_length_le (by omega), List.take_of_length_le]
      rw [List.length_append, List.length_singleton]
      omega
    · rw [List.length_append, List.length_singleton]
      dsimp only
      rw [hs.overflowedMarkers]
      omega

/-! ### The runs -/

/-- A call of `SplAlarm::update`: which alarm it updated, the block index, what the latch was given
and what it answered. -/
structure AlarmCall where
  alarm : ℕ
  blockIndex : ℕ
  level : Option ℚ
  transition : Transition

/-- Some alarms, the history they share, and the calls so far. -/
structure AlarmRun where
  alarms : List SplAlarm
  history : SplHistory
  calls : List AlarmCall

/-- The arguments of a call, and the alarm it is for. -/
structure AlarmUpdate where
  alarm : ℕ
  ctx : AlarmContext
  blocks : List Block

namespace AlarmRun

/-- The constructors: every alarm with its spec and the index of its metric, the history empty. -/
def start (specs : List (SplAlarmSpec × Option ℕ)) : AlarmRun where
  alarms := specs.map fun e => { spec := e.1, metricIndex := e.2 }
  history := {}
  calls := []

/-- One call: the alarm's marker, if it writes one, goes to the shared history. -/
def next (db : Decibels) (s : AlarmRun) (a : AlarmUpdate) (alarm : SplAlarm) : AlarmRun where
  alarms := s.alarms.set a.alarm (alarm.update db a.ctx a.blocks).1
  history := (alarm.update db a.ctx a.blocks).2.elim s.history s.history.addMarker
  calls := s.calls ++ [
    { alarm := a.alarm
      blockIndex := a.ctx.currentBlockIndex
      level := (alarm.forLatch db a.ctx a.blocks).leqDb
      transition := alarm.transitionOf db a.ctx a.blocks }]

end AlarmRun

/-- Every sequence of calls on the alarms of some specs. -/
def alarmRuns (db : Decibels) (specs : List (SplAlarmSpec × Option ℕ)) :
    Machine AlarmRun AlarmUpdate where
  init s := s = .start specs
  step s a := s.alarms[a.alarm]?.map (s.next db a)

/-- The calls for one alarm. -/
def alarmCalls (i : ℕ) (calls : List AlarmCall) : List AlarmCall := calls.filter (·.alarm = i)

/-- The levels its full windows have had. -/
def alarmLevels (i : ℕ) (calls : List AlarmCall) : List ℚ :=
  (alarmCalls i calls).filterMap (·.level)

/-- Its transitions. -/
def alarmTransitions (i : ℕ) (calls : List AlarmCall) : List Transition :=
  ((alarmCalls i calls).map (·.transition)).filter (· ≠ .none)

/-- The marker of a call with a transition. -/
structure Marks (specs : List (SplAlarmSpec × Option ℕ)) (call : AlarmCall) (marker : SplMarker) :
    Prop where
  blockIndex : marker.blockIndex = call.blockIndex
  value : call.level = some marker.value
  direction : marker.direction = if call.transition = .fired then 1 else -1
  alarm : ∃ spec metricIndex, specs[call.alarm]? = some (spec, metricIndex) ∧
    marker.quantity = markerQuantity spec.metricId ∧ marker.metricIndex = metricIndex ∧
    marker.window = spec.windowBlocks

variable {call : AlarmCall}

theorem alarmCalls_concat_self {i : ℕ} (h : call.alarm = i)
    (calls : List AlarmCall) : alarmCalls i (calls ++ [call]) = alarmCalls i calls ++ [call] := by
  simp [alarmCalls, h]

theorem alarmCalls_concat_of_ne {i : ℕ} (h : call.alarm ≠ i)
    (calls : List AlarmCall) : alarmCalls i (calls ++ [call]) = alarmCalls i calls := by
  simp [alarmCalls, h]

/-- What the calls so far have made of the alarm with a spec and a metric index. -/
structure SplAlarm.Follows (alarm : SplAlarm) (spec : SplAlarmSpec) (metricIndex : Option ℕ)
    (calls : List AlarmCall) : Prop where
  spec : alarm.spec = spec
  metricIndex : alarm.metricIndex = metricIndex
  settled : alarm.Settled (calls.filterMap (·.level))
  transitions : (calls.map (·.transition)).filter (· ≠ .none) =
    (verdictChanges false (alarm.verdicts (calls.filterMap (·.level)))).map .ofVerdict

/-- One call more. -/
theorem SplAlarm.Follows.update {db : Decibels} {alarm : SplAlarm} {spec : SplAlarmSpec}
    {metricIndex : Option ℕ} {calls : List AlarmCall}
    (h : alarm.Follows spec metricIndex calls) (a : AlarmUpdate) :
    (alarm.update db a.ctx a.blocks).1.Follows spec metricIndex (calls ++ [
      { alarm := a.alarm
        blockIndex := a.ctx.currentBlockIndex
        level := (alarm.forLatch db a.ctx a.blocks).leqDb
        transition := alarm.transitionOf db a.ctx a.blocks }]) := by
  have hverdicts : ∀ levels, (alarm.update db a.ctx a.blocks).1.verdicts levels =
      alarm.verdicts levels := fun _ => rfl
  cases hleq : (alarm.forLatch db a.ctx a.blocks).leqDb with
  | none =>
    obtain ⟨htransition, hsettled⟩ := h.settled.update_of_none hleq
    have hlevels : (calls ++ [AlarmCall.mk a.alarm a.ctx.currentBlockIndex none .none]).filterMap
        (·.level) = calls.filterMap (·.level) := by
      simp
    rw [htransition]
    constructor
    · exact h.spec
    · exact h.metricIndex
    · rw [hlevels]
      exact hsettled
    · rw [hlevels, hverdicts, ← h.transitions]
      simp
  | some level =>
    obtain ⟨htransition, hsettled⟩ := h.settled.update_of_some hleq
    have hlevels : ∀ t, (calls ++ [AlarmCall.mk a.alarm a.ctx.currentBlockIndex (some level)
        t]).filterMap (·.level) = calls.filterMap (·.level) ++ [level] := by
      intro t
      simp
    constructor
    · exact h.spec
    · exact h.metricIndex
    · rw [hlevels]
      exact hsettled
    · rw [hlevels, hverdicts, SplAlarm.verdicts_concat, verdictChanges_concat, List.map_append,
        List.filter_append, List.map_append, ← h.transitions, htransition]
      congr 1
      change _ = (if _ = alarm.held (calls.filterMap (·.level)) then _ else _ : List Bool).map _
      split_ifs with hsame
      · rfl
      · simp [Transition.ofVerdict_ne_none]

namespace AlarmRun

/-- Every alarm is what its own calls have made of it, and every transition has its marker among
those the history was given. -/
structure Inv (specs : List (SplAlarmSpec × Option ℕ)) (s : AlarmRun) : Prop where
  alarms : ∀ i spec metricIndex, specs[i]? = some (spec, metricIndex) →
    ∃ alarm : SplAlarm, s.alarms[i]? = some alarm ∧
      alarm.Follows spec metricIndex (alarmCalls i s.calls)
  length : s.alarms.length = specs.length
  markers : ∃ markers,
    List.Forall₂ (Marks specs) (s.calls.filter (·.transition ≠ .none)) markers ∧
      s.history.Stores markers

variable {db : Decibels} {specs : List (SplAlarmSpec × Option ℕ)} {s t : AlarmRun}
  {a : AlarmUpdate}

theorem inv_start (specs : List (SplAlarmSpec × Option ℕ)) : (start specs).Inv specs where
  alarms := by
    intro i spec metricIndex hspec
    refine ⟨{ spec := spec, metricIndex := metricIndex }, ?_, ?_⟩
    · simp [start, hspec]
    · exact ⟨rfl, rfl, ⟨rfl, rfl, rfl⟩, rfl⟩
  length := List.length_map _
  markers := ⟨[], .nil, rfl, rfl⟩

theorem Inv.step (h : s.Inv specs) (hstep : (alarmRuns db specs).step s a = some t) :
    t.Inv specs := by
  obtain ⟨alarm, halarm, rfl⟩ := Option.map_eq_some_iff.mp hstep
  have hlt : a.alarm < specs.length := by
    rw [← h.length]
    exact (List.getElem?_eq_some_iff.mp halarm).1
  -- the alarm that is updated has a spec, and is what its calls have made of it
  obtain ⟨⟨spec, metricIndex⟩, hspec⟩ : ∃ e, specs[a.alarm]? = some e :=
    ⟨_, List.getElem?_eq_getElem hlt⟩
  obtain ⟨alarm', halarm', hfollows⟩ := h.alarms a.alarm spec metricIndex hspec
  obtain rfl : alarm' = alarm := Option.some.inj (halarm'.symm.trans halarm)
  constructor
  · intro i spec' metricIndex' hspec'
    by_cases hi : a.alarm = i
    · subst hi
      obtain ⟨rfl, rfl⟩ := Prod.ext_iff.mp (Option.some.inj (hspec'.symm.trans hspec))
      refine ⟨(alarm'.update db a.ctx a.blocks).1, ?_, ?_⟩
      · exact List.getElem?_set_self (h.length ▸ hlt)
      · rw [next]
        dsimp only
        rw [alarmCalls_concat_self (by rfl)]
        exact hfollows.update a
    · obtain ⟨other, hother, hfollows'⟩ := h.alarms i spec' metricIndex' hspec'
      refine ⟨other, ?_, ?_⟩
      · rw [next, List.getElem?_set_ne hi]
        exact hother
      · rw [next]
        dsimp only
        rw [alarmCalls_concat_of_ne hi]
        exact hfollows'
  · rw [next, List.length_set]
    exact h.length
  · obtain ⟨markers, hmarks, hstores⟩ := h.markers
    by_cases htransition : alarm'.transitionOf db a.ctx a.blocks = .none
    · refine ⟨markers, ?_, ?_⟩
      · rw [next, List.filter_append, htransition]
        simpa using hmarks
      · rw [next, SplAlarm.update_marker_of_none htransition]
        exact hstores
    · obtain ⟨marker, hmarker, hindex, hvalue, hdirection, hquantity, hmetric, hwindow⟩ :=
        SplAlarm.update_marker_of_ne_none htransition
      rw [hfollows.spec] at hquantity hwindow
      rw [hfollows.metricIndex] at hmetric
      refine ⟨markers ++ [marker], ?_, ?_⟩
      · rw [next, List.filter_append]
        apply List.rel_append hmarks
        rw [List.filter_singleton, decide_eq_true htransition]
        exact .cons ⟨hindex, hvalue, hdirection, spec, metricIndex, hspec, hquantity, hmetric,
          hwindow⟩ .nil
      · rw [next, hmarker]
        exact hstores.addMarker marker

theorem inv_of_reachable (hs : (alarmRuns db specs).Reachable s) : s.Inv specs := by
  apply hs.invariant (Inv specs)
  · rintro _ rfl
    exact inv_start specs
  · intro u a v hu hstep
    exact hu.step hstep

end AlarmRun

/-- **Headline.** Over every sequence of calls on alarms that share a history: each transition has
exactly one marker, with the level compared and the index of the block, and the history holds the
markers in order or counts those it had no room for; and the transitions of each alarm alternate,
fired first, its state is filling exactly while no full window has had a level, and afterwards it
is fired exactly when the last full window with a level was over the limit. -/
theorem alarmRuns_spec (db : Decibels) (specs : List (SplAlarmSpec × Option ℕ)) {s : AlarmRun}
    (hs : (alarmRuns db specs).Reachable s) :
    (∃ markers,
      List.Forall₂ (Marks specs) (s.calls.filter (·.transition ≠ .none)) markers ∧
        s.history.markers = markers.take kMaxMarkers ∧
        s.history.overflowedMarkers = markers.length - kMaxMarkers) ∧
    ∀ i spec metricIndex, specs[i]? = some (spec, metricIndex) →
      ∃ alarm, s.alarms[i]? = some alarm ∧
        (∀ k t, (alarmTransitions i s.calls)[k]? = some t →
          t = if k % 2 = 0 then .fired else .cleared) ∧
        (alarm.state = .filling ↔ alarmLevels i s.calls = []) ∧
        (∀ level, (alarmLevels i s.calls).getLast? = some level →
          (alarm.state = .fired ↔ spec.limitDb < level)) := by
  have hinv := AlarmRun.inv_of_reachable hs
  constructor
  · obtain ⟨markers, hmarks, hstores⟩ := hinv.markers
    exact ⟨markers, hmarks, hstores.markers, hstores.overflowedMarkers⟩
  · intro i spec metricIndex hspec
    obtain ⟨alarm, halarm, hfollows⟩ := hinv.alarms i spec metricIndex hspec
    have hstate := hfollows.settled.state
    refine ⟨alarm, halarm, ?_, ?_, ?_⟩
    · intro k t ht
      rw [alarmTransitions, hfollows.transitions, List.getElem?_map, Option.map_eq_some_iff] at ht
      obtain ⟨v, hv, rfl⟩ := ht
      rw [getElem?_verdictChanges hv, Bool.false_xor, Transition.ofVerdict]
      simp
    · rw [alarmLevels, hstate]
      constructor
      · intro h
        by_contra hne
        rw [if_neg hne] at h
        split_ifs at h
      · intro h
        rw [if_pos h]
    · intro level hlevel
      obtain ⟨levels, hlevels⟩ := List.getLast?_eq_some_iff.mp hlevel
      rw [alarmLevels] at hlevels
      rw [hlevels, if_neg (by simp), SplAlarm.held_concat, hfollows.spec] at hstate
      rw [hstate]
      simp

/-! ### A loud block, then a silent one -/

/-- Exact on a mean square of one. -/
def unitDecibels : Decibels where
  log10 _ := 0
  pow10 x := 10 ^ ⌊x⌋

/-- One alarm over a single block, at -100 dB. -/
def oneBlockAlarm : List (SplAlarmSpec × Option ℕ) := [(⟨bytes "Leq", -100, 1⟩, some 0)]

/-- A call with one block of one sample. -/
def oneBlockCall (blockIndex : ℕ) (sumSquares : ℚ) : AlarmUpdate where
  alarm := 0
  ctx := ⟨1, 1, 0, blockIndex⟩
  blocks := [⟨blockIndex, 1, 0, sumSquares, 0, 0, 0, 0⟩]

theorem alarmRuns_spec_twoBlocks : ∃ s,
    (alarmRuns unitDecibels oneBlockAlarm).exec (.start oneBlockAlarm)
      [oneBlockCall 0 1, oneBlockCall 1 0] = some s ∧
    alarmTransitions 0 s.calls = [.fired, .cleared] ∧
    ∃ markers, List.Forall₂ (Marks oneBlockAlarm) (s.calls.filter (·.transition ≠ .none)) markers ∧
      s.history.markers = markers.take kMaxMarkers ∧
      s.history.overflowedMarkers = markers.length - kMaxMarkers := by
  have hexec : (alarmRuns unitDecibels oneBlockAlarm).exec (.start oneBlockAlarm)
      [oneBlockCall 0 1, oneBlockCall 1 0] = some _ := rfl
  have hinit : (alarmRuns unitDecibels oneBlockAlarm).Reachable (.start oneBlockAlarm) :=
    .init rfl
  exact ⟨_, hexec, by with_unfolding_all rfl,
    (alarmRuns_spec unitDecibels oneBlockAlarm (hinit.exec hexec)).1⟩

end RtaTool
