import RtaTool.Lib.Machine
import RtaTool.Measure.SplSession

/-!
# What an alarm is evaluated on

Hops arrive one after another and close blocks, sometimes several at once. Each time a block closes
an alarm should be evaluated on the last `windowBlocks` blocks its metric's chain has closed, once
that many have closed, and report that it is filling before.

Two things stand in the way. The window a chain keeps is sized by the longest *metric* and not by
the alarms, so an alarm with a longer window is never evaluated once more blocks have closed than
the window holds. And what is cut out of the window for an earlier close of a hop is shorter by the
blocks closed after it, so at capacity even an alarm that fits can be handed too few.

`WindowSuffices` says exactly when a hop is not touched by either, in terms of the capacity, the
blocks the hop closes, the blocks closed by its end and the alarm's window. The ghost field of
`SplRun` is all that each chain has closed.

## Main definitions

* `SplRun`, `HopAct`, `splRuns` -- the machine
* `EvaluatesLastBlocks` -- the property, on steps
* `WindowSuffices`, `HopSuffices` -- the condition, on steps

## Main results

* `latch_windows_iff` -- the two are equivalent along every run
-/

namespace RtaTool

/-! ### The condition -/

/-- A window of capacity `cap` suffices for an alarm over `w` blocks in a hop that closes `n` and
brings the total to `total`: nothing has been pushed out yet; or the hop's blocks fit and so does
the alarm's window before each of them, if there are that many; or the hop alone overruns the
capacity, and the alarm's window is a single block or only asks for blocks of this hop. -/
def WindowSuffices (cap n total w : ℕ) : Prop :=
  n = 0 ∨ total ≤ cap ∨ (n ≤ cap ∧ (w + n ≤ cap + 1 ∨ total < w)) ∨
    (cap < n ∧ (total < w ∨ (w ≤ cap ∧ (w ≤ 1 ∨ total = n))))

instance (cap n total w : ℕ) : Decidable (WindowSuffices cap n total w) :=
  inferInstanceAs (Decidable (_ ∨ _))

/-- It suffices exactly when every close of the hop keeps the blocks the alarm asks for. -/
theorem windowSuffices_iff {cap n total w : ℕ} (hcap : 0 < cap) (hn : n ≤ total) :
    WindowSuffices cap n total w ↔
      ∀ i < n, w ≤ total - n + i + 1 → w ≤ keptAtClose cap n total i := by
  constructor
  · intro hs i hi hw
    rw [keptAtClose]
    rcases hs with h | h | ⟨h, h'⟩ | ⟨h, h'⟩
    · omega
    · rw [if_pos (by omega)]
      omega
    · rw [if_pos (by omega)]
      omega
    · by_cases hfits : n ≤ min cap total
      · omega
      · rw [if_neg hfits]
        omega
  · intro hall
    by_contra hnot
    simp only [WindowSuffices, not_or, not_and, Nat.not_le, Nat.not_lt] at hnot
    obtain ⟨hn0, htotal, hfits, hover⟩ := hnot
    by_cases hle : n ≤ cap
    · -- the first close, or the first at which the alarm's window is full
      obtain ⟨hlong, hfull⟩ := hfits hle
      have hbad := hall (w - (total - n) - 1) (by omega) (by omega)
      rw [keptAtClose, if_pos (by omega)] at hbad
      omega
    · obtain ⟨hfull, hshort⟩ := hover (by omega)
      by_cases hw : w ≤ cap
      · obtain ⟨hone, hpast⟩ := hshort hw
        have hbad := hall (w - 2) (by omega) (by omega)
        rw [keptAtClose, if_neg (by omega)] at hbad
        omega
      · have hbad := hall (n - 1) (by omega) (by omega)
        rw [keptAtClose, if_neg (by omega)] at hbad
        omega

/-! ### The runs -/

/-- A logged channel, and all that each of its chains has closed. -/
structure SplRun (Filter : Type) where
  channel : SplChannel Filter
  closed : WeightingType → List Block

/-- A hop, and the bus's drop count before it. -/
structure HopAct where
  busDropCount : ℕ
  hop : List ℚ

namespace SplRun

variable {Filter : Type}

/-- A session that has just been enabled. -/
def start [WeightingFilter Filter] (config : SplConfig) (sampleRate : ℚ) : SplRun Filter where
  channel := .start config sampleRate
  closed := fun _ => []

/-- The effect of one hop. -/
def next [WeightingFilter Filter] (db : Decibels) (s : SplRun Filter) (a : HopAct) :
    SplRun Filter :=
  let channel := s.channel.feedSpl db a.busDropCount a.hop
  { channel := channel
    closed := fun w => s.closed w ++ channel.session.newlyClosedBlocks w }

end SplRun

/-- Every run of hops after enabling a channel with the given configuration. -/
def splRuns (Filter : Type) [WeightingFilter Filter] (db : Decibels) (config : SplConfig)
    (sampleRate : ℚ) : Machine (SplRun Filter) HopAct where
  init s := s = .start config sampleRate
  step s a := some (s.next db a)

namespace SplRun

variable {Filter : Type}

/-- Between two states of an alarm, `past` blocks having been closed before: one comparison for
each of `m` closes, over the blocks expected of it, and while fewer blocks have been closed than
the alarm's window the alarm reports that it is filling. -/
def EvaluatedOn (before after : SplAlarm) (past m : ℕ) (expected : ℕ → Option (List Block)) :
    Prop :=
  ∃ news : List Comparison, after.comparisons = before.comparisons ++ news ∧ news.length = m ∧
    ∀ i (_ : i < news.length), news[i].window = expected i ∧
      (past + (i + 1) < before.spec.windowBlocks → news[i].state = .filling)

/-- Each block the hop closed on the chain of `w` had the alarm at position `k` evaluated on the
last blocks of its window's length, the block just closed the last of them; or, when fewer had been
closed, on nothing, and the alarm was then filling. -/
def EvaluatesLastBlocks (k : ℕ) (w : WeightingType) (s : SplRun Filter) (_ : HopAct)
    (t : SplRun Filter) : Prop :=
  ∃ before after, s.channel.state.alarmAt k = some (some w, before) ∧
    t.channel.state.alarmAt k = some (some w, after) ∧
    EvaluatedOn before after (s.closed w).length (t.channel.session.newlyClosedBlocks w).length
      fun i => lastOf before.spec.windowBlocks
        (s.closed w ++ (t.channel.session.newlyClosedBlocks w).take (i + 1))

/-- How many blocks a hop will close on the chain of `w`: its clock and the hop's length say. -/
def hopCloses (s : SplRun Filter) (w : WeightingType) (a : HopAct) : ℕ :=
  match s.channel.session.chain w with
  | none => 0
  | some c =>
    closesIn c.meter.accumulator.blockSamples c.meter.accumulator.pending a.hop.length

/-- A chain's window suffices for an alarm over `windowBlocks` blocks in this hop. -/
def HopSuffices (cap : ℕ) (w : WeightingType) (windowBlocks : ℕ) (s : SplRun Filter) (a : HopAct)
    (_ : SplRun Filter) : Prop :=
  WindowSuffices cap (s.hopCloses w a) ((s.closed w).length + s.hopCloses w a) windowBlocks

instance (cap : ℕ) (w : WeightingType) (windowBlocks : ℕ) (s : SplRun Filter) (a : HopAct)
    (t : SplRun Filter) : Decidable (HopSuffices cap w windowBlocks s a t) :=
  inferInstanceAs (Decidable (WindowSuffices _ _ _ _))

theorem EvaluatedOn.iff {before after : SplAlarm} {past m : ℕ}
    {f g : ℕ → Option (List Block)} (h : EvaluatedOn before after past m f) :
    EvaluatedOn before after past m g ↔ ∀ i < m, f i = g i := by
  obtain ⟨news, hnews, hlen, hall⟩ := h
  constructor
  · rintro ⟨news', hnews', -, hall'⟩ i hi
    obtain rfl : news' = news := List.append_cancel_left (hnews'.symm.trans hnews)
    have hi' : i < news'.length := hlen ▸ hi
    exact (hall i hi').1.symm.trans (hall' i hi').1
  · intro heq
    refine ⟨news, hnews, hlen, fun i hi => ?_⟩
    rw [← heq i (hlen ▸ hi)]
    exact hall i hi

end SplRun

/-! ### The session under the invariant -/

section

variable {Filter : Type} {config : SplConfig} {b p : ℕ} {closed : WeightingType → List Block}
  {session : SplSession Filter}

section

variable (h : SessionInv config b p closed session)

include h

/-- `feedSpl` looks at all of the session's chains. -/
theorem SessionInv.fedWeightings_eq :
    SplChannel.fedWeightings session = weightingsOf config := by
  rw [SplChannel.fedWeightings, h.weightings]
  exact List.take_of_length_le (length_le_three (weightingsOf_nodup config))

variable {w : WeightingType}

omit h in
theorem find?_of_mem {ws : List WeightingType} (hw : w ∈ ws) :
    ws.find? (· = w) = some w := by
  have hsome : (ws.find? (· = w)).isSome := List.find?_isSome.mpr ⟨w, hw, by simp⟩
  obtain ⟨v, hv⟩ := Option.isSome_iff_exists.mp hsome
  obtain rfl : v = w := by simpa using List.find?_some hv
  exact hv

theorem SessionInv.windowFor_atClose (hw : w ∈ weightingsOf config) (i : ℕ) :
    SplChannelState.windowFor (SplChannel.atClose session i) (some w) =
      some (windowAtClose (session.newlyClosedBlocks w) (session.window w) i) := by
  rw [SplChannelState.windowFor, SplChannel.atClose, h.fedWeightings_eq, Option.bind_some,
    List.find?_map, Function.comp_def]
  dsimp only
  rw [find?_of_mem hw]
  rfl

theorem SessionInv.window_eq (hw : w ∈ weightingsOf config) :
    session.window w = (closed w).rtake (windowCapacityOf config) := by
  obtain ⟨c, hc, rfl, hchain⟩ := h.exists_chain hw
  rw [SplSession.window, hchain, ← (h.clock c hc).2]
  exact (h.clock c hc).1.window

/-- The count `feedSpl` loops to is any chain's. -/
theorem SessionInv.closedCount_eq {n : ℕ}
    (hn : ∀ w ∈ weightingsOf config, (session.newlyClosedBlocks w).length = n)
    (hne : weightingsOf config ≠ []) : SplChannel.closedCount session = n := by
  rw [SplChannel.closedCount, h.fedWeightings_eq, List.getLast?_eq_some_getLast hne]
  exact hn _ (List.getLast_mem hne)

/-! ### The alarms through the closes of a hop -/

theorem SessionInv.closeAll
    (hw : w ∈ weightingsOf config) (db : Decibels) {st : SplChannelState} {k : ℕ}
    {before : SplAlarm} (hbefore : st.alarmAt k = some (some w, before)) {past n : ℕ}
    (hshort : ∀ i < n,
      (windowAtClose (session.newlyClosedBlocks w) (session.window w) i).length ≤ past + (i + 1))
    (hfresh : past < before.spec.windowBlocks → before.Fresh) :
    ∀ m ≤ n, ∃ after, (SplChannel.closeAll db session st m).alarmAt k = some (some w, after) ∧
      after.spec = before.spec ∧ (past + m < before.spec.windowBlocks → after.Fresh) ∧
      SplRun.EvaluatedOn before after past m fun i => lastOf before.spec.windowBlocks
        (windowAtClose (session.newlyClosedBlocks w) (session.window w) i) := by
  intro m
  induction m with
  | zero =>
    intro _
    refine ⟨before, hbefore, rfl, hfresh, [], (List.append_nil _).symm, rfl, ?_⟩
    intro i hi
    exact absurd hi (Nat.not_lt_zero i)
  | succ m ih =>
    intro hm
    obtain ⟨after, hafter, hspec, hstill, news, hnews, hlen, hall⟩ := ih (Nat.le_of_succ_le hm)
    obtain ⟨front, rest, hchains⟩ : ∃ front rest, SplChannel.atClose session m = front :: rest := by
      refine List.exists_cons_of_ne_nil fun hnil => ?_
      have hwindow := h.windowFor_atClose hw m
      rw [hnil] at hwindow
      cases hwindow
    have hclose := SplChannelState.alarmAt_onBlockClosed db
      (SplChannel.closeAll db session st m) front rest k
    rw [hafter, ← hchains, Option.map_some, h.windowFor_atClose hw m] at hclose
    have hcompared := after.update_comparisons db
      ((SplChannel.closeAll db session st m).context front.block.blockIndex)
      (windowAtClose (session.newlyClosedBlocks w) (session.window w) m)
    have hfilling : past + (m + 1) < before.spec.windowBlocks →
        (after.update db
          ((SplChannel.closeAll db session st m).context front.block.blockIndex)
          (windowAtClose (session.newlyClosedBlocks w) (session.window w) m)).1.Fresh := by
      intro hfill
      refine (hstill (by omega)).update ?_
      have := hshort m hm
      rw [hspec]
      omega
    rw [hnews, hspec, List.append_assoc] at hcompared
    refine ⟨_, hclose, hspec, hfilling, _, hcompared, by simp [hlen], fun i hi => ?_⟩
    by_cases hlast : i < news.length
    · rw [List.getElem_append_left hlast]
      exact hall i hlast
    · obtain rfl : i = m := by
        rw [List.length_append, List.length_singleton] at hi
        omega
      rw [List.getElem_append_right (by omega)]
      simp only [hlen, Nat.sub_self, List.getElem_cons_zero]
      exact ⟨trivial, fun hfill => (hfilling hfill).state⟩

end

end

/-! ### The alarm along a run -/

namespace SplRun

variable {Filter : Type}

/-- Along every run of a valid configuration: the session keeps its chains' clocks and windows, and
the alarm at position `k` is in the group of its metric's weighting and is fresh until its window
has been full. -/
structure RunInv (config : SplConfig) (k : ℕ) (spec : SplAlarmSpec) (w : WeightingType)
    (s : SplRun Filter) : Prop where
  session : ∃ b p, SessionInv config b p s.closed s.channel.session
  alarm : ∃ alarm, s.channel.state.alarmAt k = some (some w, alarm) ∧ alarm.spec = spec ∧
    ((s.closed w).length < spec.windowBlocks → alarm.Fresh)

section

variable {config : SplConfig} {k : ℕ} {spec : SplAlarmSpec} {w : WeightingType}
  {s : SplRun Filter}

theorem RunInv.start [WeightingFilter Filter] (sampleRate : ℚ)
    (hvalid : config.refusedMetricCount = 0) (hspec : config.alarms[k]? = some spec)
    (hw : config.weightingOf spec = some w) :
    RunInv config k spec w (SplRun.start config sampleRate : SplRun Filter) := by
  refine ⟨⟨_, _, SessionInv.start_of_valid sampleRate hvalid⟩, ?_⟩
  have halarm := SplChannelState.alarmAt_make sampleRate hspec
  rw [hw] at halarm
  exact ⟨_, halarm, rfl, fun _ => ⟨rfl, rfl, rfl⟩⟩

section

variable (h : RunInv config k spec w s) (hw : w ∈ weightingsOf config) (db : Decibels) (a : HopAct)

include h hw

theorem RunInv.hopCloses_eq [WeightingFilter Filter] :
    s.hopCloses w a = ((s.next db a).channel.session.newlyClosedBlocks w).length := by
  obtain ⟨b, p, hsession⟩ := h.session
  obtain ⟨c, hc, rfl, hchain⟩ := hsession.exists_chain hw
  have hclock := (hsession.clock c hc).1
  rw [hopCloses, hchain]
  dsimp only
  rw [hclock.blockSamples_eq, hclock.pending_eq]
  exact (((hsession.noteDropCount a.busDropCount).feedHop a.hop).1 _ hw).symm

/-- **One hop.** The invariant goes on, and each close of the hop evaluates the alarm on the end of
what had been closed by then, as far as the window kept it. -/
theorem RunInv.next [WeightingFilter Filter] :
    RunInv config k spec w (s.next db a) ∧
      ∃ before after, s.channel.state.alarmAt k = some (some w, before) ∧
        (s.next db a).channel.state.alarmAt k = some (some w, after) ∧ before.spec = spec ∧
        EvaluatedOn before after (s.closed w).length
          ((s.next db a).channel.session.newlyClosedBlocks w).length fun i =>
            lastOf spec.windowBlocks (windowAtClose
              ((s.next db a).channel.session.newlyClosedBlocks w)
              ((s.next db a).channel.session.window w) i) := by
  obtain ⟨b, p, hsession⟩ := h.session
  obtain ⟨before, hbefore, rfl, hfresh⟩ := h.alarm
  obtain ⟨hcloses, hfed⟩ := (hsession.noteDropCount a.busDropCount).feedHop a.hop
  have hcount := hfed.closedCount_eq hcloses (List.ne_nil_of_mem hw)
  have hshort : ∀ i < closesIn b p a.hop.length,
      (windowAtClose ((s.next db a).channel.session.newlyClosedBlocks w)
        ((s.next db a).channel.session.window w) i).length ≤ (s.closed w).length + (i + 1) := by
    intro i hi
    rw [← hcloses w hw] at hi
    have hcut := windowAtClose_eq_rtake (windowCapacityOf config) (s.closed w) _ hi
    rw [← hfed.window_eq hw] at hcut
    have hlen := congrArg List.length hcut
    rw [length_rtake, List.length_append, List.length_take] at hlen
    refine hlen.trans_le ?_
    omega
  obtain ⟨after, hafter, hspec, hstill, hon⟩ :=
    hfed.closeAll hw db hbefore hshort hfresh _ (Nat.le_refl _)
  rw [← hcount] at hafter
  rw [← hcloses w hw] at hstill hon
  refine ⟨⟨⟨_, _, hfed⟩, after, hafter, hspec, fun hfill => hstill ?_⟩,
    before, after, hbefore, hafter, rfl, hon⟩
  rw [← List.length_append]
  exact hfill

theorem RunInv.evaluatesLastBlocks_iff [WeightingFilter Filter] :
    EvaluatesLastBlocks k w s a (s.next db a) ↔
      HopSuffices (windowCapacityOf config) w spec.windowBlocks s a (s.next db a) := by
  obtain ⟨-, before, after, hbefore, hafter, rfl, hon⟩ := h.next hw db a
  have hcloses := h.hopCloses_eq hw db a
  have hwindow : (s.next db a).channel.session.window w =
      (s.closed w ++ (s.next db a).channel.session.newlyClosedBlocks w).rtake
        (windowCapacityOf config) := by
    obtain ⟨b, p, hsession⟩ := h.session
    exact ((hsession.noteDropCount a.busDropCount).feedHop a.hop).2.window_eq hw
  calc EvaluatesLastBlocks k w s a (s.next db a)
      ↔ EvaluatedOn before after (s.closed w).length
          ((s.next db a).channel.session.newlyClosedBlocks w).length fun i =>
            lastOf before.spec.windowBlocks
              (s.closed w ++ ((s.next db a).channel.session.newlyClosedBlocks w).take (i + 1)) := by
        constructor
        · rintro ⟨before', after', hbefore', hafter', hon'⟩
          obtain rfl : before' = before := by simpa [hbefore] using hbefore'.symm
          obtain rfl : after' = after := by simpa [hafter] using hafter'.symm
          exact hon'
        · exact fun hon' => ⟨before, after, hbefore, hafter, hon'⟩
    _ ↔ ∀ i < ((s.next db a).channel.session.newlyClosedBlocks w).length,
          before.spec.windowBlocks ≤ (s.closed w).length + (i + 1) →
          before.spec.windowBlocks ≤ keptAtClose (windowCapacityOf config)
            ((s.next db a).channel.session.newlyClosedBlocks w).length
            ((s.closed w).length + ((s.next db a).channel.session.newlyClosedBlocks w).length)
            i := by
        rw [hon.iff]
        refine forall₂_congr fun i hi => ?_
        rw [hwindow, windowAtClose_eq_rtake _ _ _ hi, lastOf_rtake_eq_iff, List.length_append,
          List.length_take, Nat.min_eq_left (Nat.succ_le_of_lt hi)]
    _ ↔ HopSuffices (windowCapacityOf config) w before.spec.windowBlocks s a (s.next db a) := by
        rw [HopSuffices, hcloses,
          windowSuffices_iff (windowCapacityOf_pos config) (Nat.le_add_left _ _)]
        refine forall₂_congr fun i _ => ?_
        rw [Nat.add_sub_cancel, Nat.add_assoc]

end

end

/-- **Headline.** In every run of hops of a valid configuration, every block that closes on the
chain of an alarm's metric has the alarm evaluated on the last blocks of its window's length, and
filling before there are that many, exactly when every hop's window suffices for it. -/
theorem latch_windows_iff [WeightingFilter Filter] (db : Decibels) (config : SplConfig)
    (sampleRate : ℚ) {k : ℕ} {spec : SplAlarmSpec} {metric : SplMetricSpec} {i : ℕ}
    (hvalid : config.refusedMetricCount = 0) (hspec : config.alarms[k]? = some spec)
    (hmetric : config.metricNamed spec.metricId = some (metric, i)) (acts : List HopAct) :
    (splRuns Filter db config sampleRate).AlongSteps (EvaluatesLastBlocks k metric.weighting)
        (.start config sampleRate) acts ↔
      (splRuns Filter db config sampleRate).AlongSteps
        (HopSuffices (windowCapacityOf config) metric.weighting spec.windowBlocks)
        (.start config sampleRate) acts := by
  have hmem : metric ∈ config.metrics :=
    List.fst_mem_of_mem_zipIdx (List.mem_of_find?_eq_some hmetric)
  have hw : config.weightingOf spec = some metric.weighting := by
    rw [SplConfig.weightingOf, hmetric, Option.map_some]
  refine Machine.alongSteps_iff (RunInv config k spec metric.weighting) ?_ ?_
    (RunInv.start sampleRate hvalid hspec hw)
  · rintro s a _ h ⟨⟩ -
    exact (h.next (mem_weightingsOf hmem) db a).1
  · rintro s a _ h ⟨⟩
    exact h.evaluatesLastBlocks_iff (mem_weightingsOf hmem) db a

/-! ### One-sample blocks of silence -/

/-- Exact on whole powers of ten. -/
def wholeDecibels : Decibels where
  log10 x := Int.log 10 x
  pow10 x := 10 ^ ⌊x⌋

/-- One metric and an alarm on it, at the level silence is given. -/
def oneAlarm (metricBlocks alarmBlocks : ℕ) : SplConfig where
  blockSeconds := 1 / 48000
  metrics := [{ id := bytes "Leq", weighting := .Z, windowBlocks := metricBlocks }]
  alarms := [{ metricId := bytes "Leq", limitDb := -200, windowBlocks := alarmBlocks }]

/-- Three samples, one hop each. -/
def threeHops : List HopAct := [⟨0, [0]⟩, ⟨0, [0]⟩, ⟨0, [0]⟩]

theorem latch_windows_iff_two_blocks :
    (splRuns Through wholeDecibels (oneAlarm 2 2) 48000).AlongSteps (EvaluatesLastBlocks 0 .Z)
      (.start (oneAlarm 2 2) 48000) threeHops := by
  have hspec : (oneAlarm 2 2).alarms[0]? = some ⟨bytes "Leq", -200, 2⟩ := rfl
  have hmetric : (oneAlarm 2 2).metricNamed (bytes "Leq") = some (⟨bytes "Leq", .Z, 2⟩, 0) := rfl
  refine (latch_windows_iff wholeDecibels (oneAlarm 2 2) 48000 (by decide)
    hspec hmetric threeHops).mpr ?_
  decide +kernel

/-- A metric of one block keeps one block: the alarm's two are never there together. -/
theorem alarm_outlasts_metric :
    ¬ (splRuns Through wholeDecibels (oneAlarm 1 2) 48000).AlongSteps (EvaluatesLastBlocks 0 .Z)
      (.start (oneAlarm 1 2) 48000) threeHops := by
  intro h
  obtain ⟨before, after, hbefore, hafter, news, hnews, hlen, hall⟩ := (h.tail rfl).head rfl
  have hone : 0 < news.length := by
    rw [hlen]
    decide +kernel
  have hblocks : (some (some WeightingType.Z, before)).all (·.2.spec.windowBlocks = 2) := by
    rw [← hbefore]
    decide +kernel
  -- the latch was given nothing either time
  have hnone : (some (some WeightingType.Z, after)).all
      (·.2.comparisons.all fun c => c.window = none) := by
    rw [← hafter]
    decide +kernel
  have hwindow : news[0].window = none := by
    simp only [Option.all_some, List.all_eq_true, decide_eq_true_eq] at hnone
    refine hnone _ ?_
    rw [hnews]
    exact List.mem_append_right _ (List.getElem_mem hone)
  have hlast := (hall 0 hone).1
  rw [hwindow, of_decide_eq_true hblocks] at hlast
  exact absurd hlast (by decide +kernel)

end SplRun

end RtaTool
