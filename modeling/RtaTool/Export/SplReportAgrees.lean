import RtaTool.Export.SplReportPayload
import RtaTool.Export.SplSessionRead

/-!
# A report against what was logged

The report's passes are reading, choosing a header, marking, combining and drawing; the direct
recomputation starts from the rows that were written (`ChannelWriter.onDisk`) and from what the
channel's log was started with. They agree on every figure, for any number of channels in any order,
any rotation, any calibration record and a torn last row of any log: `ReportAgrees`.

What they cannot agree on is a label. A channel's figure has one, from the last header, and the
blocks of all its generations are in it. `reconfigure` starts a new generation to keep blocks of
different settings apart, and the reader puts them together again.

## Main definitions

* `ChannelWriter.whole`, `directRow`, `directSeries`, `directMarkers` -- the direct recomputation
* `ReportAgrees`, `Unmixed`

## Main results

* `BuildAgrees.fold` -- the loop over the channels, one channel after another
* `buildReportPayload_agrees_iff` -- **Headline.** Every report agrees with the recomputation; its
  figures are unmixed exactly if no settings changed between the rows that count
-/

namespace RtaTool

variable {D F : Type} (win : Meter.WindowNumbers D F) (nums : LogNumbers D F)

/-! ### The direct recomputation -/

section

variable (missing : Bytes → ℕ) (record : Option SplCalibrationRecordInfo)

/-- The rows of a channel that are on disk, with the bracket of a failed check marked. -/
def ChannelWriter.rows (channel : ℤ) (w : ChannelWriter D F) : List (Block D F) :=
  (w.onDisk missing).map fun x => markBracket record channel x.2

/-- A channel's figures, at the offset and the sample rate its log was started with. -/
def ChannelWriter.whole (channel : ℤ) (w : ChannelWriter D F) : Meter.WindowResult D :=
  Meter.combineBlocks win nums (w.rows missing record channel) w.info.sampleRate
    w.config.referenceOffsetDb (w.rows missing record channel).length

/-- The row of a channel's figures. -/
def directRow (x : ℤ × ChannelWriter D F) : ReportMetricResult D :=
  let whole := x.2.whole win nums missing record x.1
  { id := channelStem x.1
    weighting := x.2.lastInfo.weighting
    detector := x.2.lastInfo.detector
    intervalSeconds := whole.seconds
    leqDb := whole.leqDb
    lmaxDb := some whole.maxFastDb
    lpeakDb := some whole.peakDb
    selDb :=
      if win.lt win.zero whole.seconds then
        whole.leqDb.map fun leq => win.add leq (win.tenLog10 whole.seconds)
      else none }

/-- The points of a channel's history, one for each row that is not left out. -/
def directPoints (x : ℤ × ChannelWriter D F) : List (ReportHistoryPoint D) :=
  ((x.2.rows missing record x.1).filter fun b => !Meter.isExcluded b).map fun b =>
    ⟨b.blockIndex, blockLevelDb nums x.2.config.referenceOffsetDb b⟩

/-- A channel's history, if it has any. -/
def directSeries (x : ℤ × ChannelWriter D F) : List (ReportHistorySeries D) :=
  if directPoints nums missing record x = [] then []
  else [⟨channelStem x.1, directPoints nums missing record x⟩]

/-- A channel's markers: one for each overload and each gap of the rows as they were logged. -/
def directMarkers (x : ℤ × ChannelWriter D F) : List ReportMarker :=
  (x.2.onDisk missing).flatMap fun row => blockMarkers x.1 row.2

/-- The channels of a request that have a log, each with its writer. -/
def loggedChannels (writers : ℤ → Option (ChannelWriter D F)) (channels : List ℤ) :
    List (ℤ × ChannelWriter D F) :=
  channels.filterMap fun channel => (writers channel).map fun w => (channel, w)

/-- The counts of the validity section, each with what a channel adds to it. -/
def validityCounts : List ((ReportValidity → ℕ) × (ℤ × ChannelWriter D F → ℕ)) :=
  [(ReportValidity.totalBlocks, fun x => (x.2.onDisk missing).length),
    (ReportValidity.excludedBlocks, fun x =>
      (x.2.whole win nums missing record x.1).excludedBlocks),
    (ReportValidity.overloadBlocks, fun x =>
      (x.2.whole win nums missing record x.1).overloadBlocks),
    (ReportValidity.underRangeBlocks, fun x =>
      (x.2.whole win nums missing record x.1).underRangeBlocks),
    (ReportValidity.droppedBlocks, fun x => (x.2.whole win nums missing record x.1).droppedBlocks),
    (ReportValidity.gapBlocks, fun x => (x.2.whole win nums missing record x.1).gapBlocks),
    (ReportValidity.droppedSamplesTotal, fun x =>
      (x.2.whole win nums missing record x.1).droppedSamplesTotal)]

/-- A report says what the direct recomputation says. -/
structure ReportAgrees (writers : ℤ → Option (ChannelWriter D F)) (channels : List ℤ)
    (result : SplReportBuildResult D) : Prop where
  noLog : result.channelsWithNoLog = channels.filter fun channel => (writers channel).isNone
  absent : result.payload = none ↔ loggedChannels writers channels = []
  metrics : ∀ p ∈ result.payload,
    p.metrics = (loggedChannels writers channels).map (directRow win nums missing record)
  history : ∀ p ∈ result.payload,
    p.history = (loggedChannels writers channels).flatMap (directSeries nums missing record)
  markers : ∀ p ∈ result.payload,
    p.markers = (loggedChannels writers channels).flatMap (directMarkers missing)
  counts : ∀ p ∈ result.payload, ∀ f ∈ validityCounts win nums missing record,
    f.1 p.validity = ((loggedChannels writers channels).map f.2).sum
  page : ∀ p ∈ result.payload, ∀ x ∈ (loggedChannels writers channels).head?,
    p.referenceOffsetDb = x.2.config.referenceOffsetDb ∧ p.calibrated = x.2.config.calibrated ∧
      p.sampleRate = x.2.info.sampleRate

/-- A block counts in the channel's figure. -/
def Counts (channel : ℤ) (b : Block D F) : Prop :=
  Meter.isExcluded (markBracket record channel b) = false

instance (channel : ℤ) (b : Block D F) : Decidable (Counts record channel b) :=
  inferInstanceAs (Decidable (_ = _))

/-- The blocks that make a channel's figure were logged under one weighting and one detector, going
by the headers of the files they are read from. -/
def Unmixed (entries : List (Bytes × Bytes)) (channel : ℤ) : Prop :=
  ∀ x ∈ labelledRows nums win.zero (channelFiles entries channel),
    ∀ y ∈ labelledRows nums win.zero (channelFiles entries channel),
      Counts record channel x.2 → Counts record channel y.2 → x.1 = y.1

/-- A row is on disk if nothing is missing of the log's last row, or if it is not the last. -/
def ChannelWriter.RowOnDisk (w : ChannelWriter D F) (after : List (WriterAct D F)) : Prop :=
  missing w.writer.stream = 0 ∨ ∃ b, WriterAct.write b ∈ after

/-- Of any two rows that are on disk and count, the second is written under the settings of the
first: what `reconfigure` was called with in between, if it was called, comes to the same. -/
def ChannelWriter.Settled (channel : ℤ) (w : ChannelWriter D F) : Prop :=
  ∀ before b between c after,
    w.calls = before ++ .write b :: (between ++ .write c :: after) →
      Counts record channel b → Counts record channel c → w.RowOnDisk missing after →
        settingsAfter (settingsAfter w.info.settings before) between =
          settingsAfter w.info.settings before

end

/-! ### The condition on the calls -/

variable {calls : List (WriterAct D F)} {s : LogSettings}

theorem exists_call_of_loggedUnder
    {pre post : List (LogSettings × Block D F)} {x : LogSettings × Block D F}
    (h : loggedUnder s calls = pre ++ x :: post) :
    ∃ before after, calls = before ++ .write x.2 :: after ∧ loggedUnder s before = pre ∧
      settingsAfter s before = x.1 ∧ loggedUnder x.1 after = post := by
  induction calls generalizing s pre with
  | nil => exact absurd h.symm (by simp [loggedUnder])
  | cons a calls ih =>
    cases a with
    | reconfigure weighting detector =>
      obtain ⟨before, after, rfl, hpre, hx, hpost⟩ := ih h
      exact ⟨.reconfigure weighting detector :: before, after, rfl, hpre, hx, hpost⟩
    | write b =>
      cases pre with
      | nil =>
        obtain ⟨rfl, hpost⟩ := List.cons.inj h
        exact ⟨[], calls, rfl, rfl, rfl, hpost⟩
      | cons y pre =>
        obtain ⟨rfl, hrest⟩ := List.cons.inj h
        obtain ⟨before, after, rfl, hpre, hx, hpost⟩ := ih hrest
        exact ⟨.write b :: before, after, rfl, congrArg _ hpre, hx, hpost⟩

theorem loggedUnder_eq_nil_iff :
    loggedUnder s calls = [] ↔ ¬ ∃ b, WriterAct.write b ∈ calls := by
  induction calls generalizing s with
  | nil => simp [loggedUnder]
  | cons a calls ih =>
    cases a with
    | write b => exact iff_of_false (List.cons_ne_nil _ _) (not_not.mpr ⟨b, List.mem_cons_self⟩)
    | reconfigure weighting detector => simpa [loggedUnder] using ih

variable {nums win} {missing : Bytes → ℕ} {record : Option SplCalibrationRecordInfo}

variable {w : ChannelWriter D F}

theorem mem_onDisk {pre post : List (LogSettings × Block D F)}
    (h : loggedUnder w.info.settings w.calls = pre ++ post)
    (hrow : missing w.writer.stream = 0 ∨ post ≠ []) {y : LogSettings × Block D F} (hy : y ∈ pre) :
    y ∈ w.onDisk missing := by
  rw [ChannelWriter.onDisk, h]
  split
  · exact List.mem_append_left _ hy
  · rename_i hmissing
    rw [List.dropLast_append_of_ne_nil (hrow.resolve_left hmissing)]
    exact List.mem_append_left _ hy

theorem exists_onDisk_append (missing : Bytes → ℕ) (w : ChannelWriter D F) :
    ∃ rest, loggedUnder w.info.settings w.calls = w.onDisk missing ++ rest ∧
      (missing w.writer.stream = 0 ∨ w.onDisk missing = [] ∨ rest ≠ []) := by
  rw [ChannelWriter.onDisk]
  split
  · rename_i hmissing
    exact ⟨[], (List.append_nil _).symm, .inl hmissing⟩
  · rcases List.eq_nil_or_concat' (loggedUnder w.info.settings w.calls) with hnil | ⟨l, x, hl⟩
    · rw [hnil]
      exact ⟨[], rfl, .inr (.inl rfl)⟩
    · rw [hl, List.dropLast_concat]
      exact ⟨[x], rfl, .inr (.inr (List.cons_ne_nil _ _))⟩

theorem ChannelWriter.Settled.pair {channel : ℤ}
    (h : w.Settled missing record channel) {pre mid post : List (LogSettings × Block D F)}
    {x y : LogSettings × Block D F}
    (hdisk : w.onDisk missing = pre ++ x :: (mid ++ y :: post)) (hx : Counts record channel x.2)
    (hy : Counts record channel y.2) : x.1 = y.1 := by
  obtain ⟨rest, hrest, hrow⟩ := exists_onDisk_append missing w
  rw [hdisk, List.append_assoc, List.cons_append] at hrest
  obtain ⟨before, tail, hcalls, -, hsettings, htail⟩ := exists_call_of_loggedUnder hrest
  rw [List.append_assoc, List.cons_append] at htail
  obtain ⟨between, after, rfl, -, hsettings', hafter⟩ := exists_call_of_loggedUnder htail
  have hsame := h before x.2 between y.2 after hcalls hx hy ?_
  · rw [hsettings, hsettings'] at hsame
    exact hsame.symm
  · refine hrow.imp_right fun hrest' => ?_
    by_contra hnone
    rw [loggedUnder_eq_nil_iff.mpr hnone, eq_comm, List.append_eq_nil_iff] at hafter
    rcases hrest' with hnil | hne
    · rw [hdisk] at hnil
      simp at hnil
    · exact hne hafter.2

/-- The condition on the calls is one on the rows. -/
theorem settled_iff {channel : ℤ} :
    w.Settled missing record channel ↔
      ∀ x ∈ w.onDisk missing, ∀ y ∈ w.onDisk missing,
        Counts record channel x.2 → Counts record channel y.2 → x.1 = y.1 := by
  constructor
  · intro h x hx y hy hcx hcy
    obtain ⟨pre, post, hdisk⟩ := List.append_of_mem hx
    rw [hdisk, List.mem_append, List.mem_cons] at hy
    rcases hy with hy | rfl | hy
    · obtain ⟨pre', mid, rfl⟩ := List.append_of_mem hy
      rw [List.append_assoc, List.cons_append] at hdisk
      exact (h.pair hdisk hcy hcx).symm
    · rfl
    · obtain ⟨mid, post', rfl⟩ := List.append_of_mem hy
      exact h.pair hdisk hcx hcy
  · intro h before b between c after hcalls hb hc hrow
    have hlogged : loggedUnder w.info.settings w.calls =
        (loggedUnder w.info.settings before ++ (settingsAfter w.info.settings before, b) ::
          (loggedUnder (settingsAfter w.info.settings before) between ++
            [(settingsAfter (settingsAfter w.info.settings before) between, c)])) ++
          loggedUnder (settingsAfter (settingsAfter w.info.settings before) between) after := by
      rw [hcalls, loggedUnder_append, List.append_assoc]
      show _ ++ _ :: loggedUnder _ (between ++ .write c :: after) = _
      rw [loggedUnder_append, List.cons_append, List.append_assoc]
      rfl
    have hmem : ∀ {z : LogSettings × Block D F}, _ → z ∈ w.onDisk missing :=
      mem_onDisk hlogged (hrow.imp_right fun hw hnil => loggedUnder_eq_nil_iff.mp hnil hw)
    refine (h (settingsAfter w.info.settings before, b) (hmem ?_)
      (settingsAfter (settingsAfter w.info.settings before) between, c) (hmem ?_) hb hc).symm
    · simp
    · simp

/-! ### The loop over the channels -/

variable (win nums missing record)

/-- What the loop has added for some channels with logs and some without. -/
structure BuildAgrees (before after : ReportBuild D) (logged : List (ℤ × ChannelWriter D F))
    (silent : List ℤ) : Prop where
  noLog : after.channelsWithNoLog = before.channelsWithNoLog ++ silent
  any : after.any = true ↔ before.any = true ∨ logged ≠ []
  firstHeader : after.firstHeader = before.firstHeader.or
    (logged.head?.map fun x => headerWritten x.2.config x.2.lastInfo)
  metrics : after.payload.metrics =
    before.payload.metrics ++ logged.map (directRow win nums missing record)
  history : after.payload.history =
    before.payload.history ++ logged.flatMap (directSeries nums missing record)
  markers : after.payload.markers =
    before.payload.markers ++ logged.flatMap (directMarkers missing)
  counts : ∀ f ∈ validityCounts win nums missing record, f.1 after.payload.validity =
    f.1 before.payload.validity + (logged.map f.2).sum

variable {win nums missing record}

theorem BuildAgrees.refl (build : ReportBuild D) :
    BuildAgrees win nums missing record build build [] [] where
  noLog := (List.append_nil _).symm
  any := by simp
  firstHeader := by simp
  metrics := (List.append_nil _).symm
  history := (List.append_nil _).symm
  markers := (List.append_nil _).symm
  counts _ _ := rfl

theorem BuildAgrees.trans {build build' build'' : ReportBuild D}
    {logged logged' : List (ℤ × ChannelWriter D F)} {silent silent' : List ℤ}
    (h : BuildAgrees win nums missing record build build' logged silent)
    (h' : BuildAgrees win nums missing record build' build'' logged' silent') :
    BuildAgrees win nums missing record build build'' (logged ++ logged') (silent ++ silent') where
  noLog := by rw [h'.noLog, h.noLog, List.append_assoc]
  any := by
    rw [h'.any, h.any, or_assoc, Ne, Ne, Ne, List.append_eq_nil_iff, not_and_or]
  firstHeader := by
    rw [h'.firstHeader, h.firstHeader, Option.or_assoc]
    congr 1
    cases logged with
    | nil => rfl
    | cons x logged => rfl
  metrics := by rw [h'.metrics, h.metrics, List.map_append, List.append_assoc]
  history := by rw [h'.history, h.history, List.flatMap_append, List.append_assoc]
  markers := by rw [h'.markers, h.markers, List.flatMap_append, List.append_assoc]
  counts f hf := by
    rw [h'.counts f hf, h.counts f hf, List.map_append, List.sum_append, Nat.add_assoc]

variable {mode : TextMode} {s : SessionLogs D F} {entries : List (Bytes × Bytes)}

theorem BuildAgrees.silent {channel : ℤ} {entries : List (Bytes × Bytes)}
    (hfiles : channelFiles entries channel = []) (build : ReportBuild D) :
    BuildAgrees win nums missing record build
      (build.addChannel win nums entries record channel) [] [channel] := by
  have hlog : (readChannelLog nums (parseLogHeader nums win.zero) entries channel).segmentPaths =
      [] := by
    rw [readChannelLog, hfiles]
    rfl
  rw [ReportBuild.addChannel.eq_def]
  dsimp only
  rw [if_pos hlog]
  exact { BuildAgrees.refl build with noLog := rfl }

theorem blockMarkers_markBracket (channel : ℤ) (b : Block D F) :
    blockMarkers channel (markBracket record channel b) = blockMarkers channel b := by
  have hindex : (markBracket record channel b).blockIndex = b.blockIndex := by
    rw [markBracket.eq_def]
    split
    · rfl
    · split <;> rfl
  rw [blockMarkers, blockMarkers, hindex, hasFlag_markBracket _ _ _ (by decide),
    hasFlag_markBracket _ _ _ (by decide)]

theorem BuildAgrees.logged {channel : ℤ} {done : List (Segment D F)}
    {cur : Segment D F} {entries : List (Bytes × Bytes)}
    (h : ChannelHolds nums mode channel missing (channelFiles entries channel) w done cur)
    (hfits : w.Fits) (build : ReportBuild D) :
    BuildAgrees win nums missing record build
      (build.addChannel win nums entries record channel) [(channel, w)] [] := by
  obtain ⟨hblocks, hpaths, hheader, -⟩ := h.readChannelLog hfits win.zero
  have hrows : ((readChannelLog nums (parseLogHeader nums win.zero) entries channel).blocks.map
      (markBracket record channel)) = w.rows missing record channel := by
    rw [hblocks, List.map_map]
    rfl
  have hlength : (readChannelLog nums (parseLogHeader nums win.zero) entries channel).blocks.length =
      (w.onDisk missing).length := by
    rw [hblocks, List.length_map]
  have hmarkers : (w.rows missing record channel).flatMap (blockMarkers channel) =
      directMarkers missing (channel, w) := by
    rw [ChannelWriter.rows, List.flatMap_map, directMarkers]
    exact List.flatMap_congr fun x _ => blockMarkers_markBracket channel x.2
  rw [ReportBuild.addChannel.eq_def]
  dsimp only
  rw [if_neg hpaths, hrows, hheader, appendHistoryAndMarkers_eq, hmarkers]
  refine ⟨(List.append_nil _).symm, by simp, rfl, rfl, ?_, ?_, ?_⟩
  · rw [List.flatMap_singleton, directSeries, directPoints]
    rfl
  · rw [List.flatMap_singleton]
  · intro f hf
    have hrowsLength : (w.rows missing record channel).length = (w.onDisk missing).length :=
      List.length_map _
    rw [List.map_singleton, List.sum_singleton]
    simp only [validityCounts, List.mem_cons, List.not_mem_nil, or_false] at hf
    rcases hf with rfl | rfl | rfl | rfl | rfl | rfl | rfl
    · exact congrArg _ hrowsLength
    all_goals rfl

variable {channels : List ℤ}

section

variable (hinv : SessionLogsInv nums mode s) (htorn : TornRows nums mode s missing)
  (hfits : ∀ channel w, s.writers channel = some w → w.Fits) (hperm : entries.Perm s.folder.files)

include hinv htorn hfits hperm

/-- The loop over all channels. -/
theorem BuildAgrees.fold (build : ReportBuild D) :
    BuildAgrees win nums missing record build
      (channels.foldl (.addChannel win nums (entries.map (cutFile missing)) record) build)
      (loggedChannels s.writers channels)
      (channels.filter fun channel => (s.writers channel).isNone) := by
  induction channels generalizing build with
  | nil => exact .refl build
  | cons channel channels ih =>
    rw [List.foldl_cons, loggedChannels, List.filterMap_cons, List.filter_cons]
    cases hw : s.writers channel with
    | none =>
      exact (BuildAgrees.silent (channelFiles_session_none hinv hw hperm missing) build).trans (ih _)
    | some w =>
      obtain ⟨done, cur, hholds⟩ := channelFiles_session hinv htorn hw hperm
      exact (BuildAgrees.logged hholds (hfits channel w hw) build).trans (ih _)

theorem reportAgrees (parseCalibrationRecord : Bytes → Option SplCalibrationRecordInfo) :
    ReportAgrees win nums missing
      (readCalibration parseCalibrationRecord (entries.map (cutFile missing))) s.writers channels
      (buildReportPayload win nums parseCalibrationRecord (entries.map (cutFile missing))
        channels) := by
  generalize hrecord : readCalibration parseCalibrationRecord (entries.map (cutFile missing)) = record
  have h : BuildAgrees win nums missing record { payload := startPayload win record }
      (channels.foldl (.addChannel win nums (entries.map (cutFile missing)) record)
        { payload := startPayload win record }) _ _ :=
    .fold hinv htorn hfits hperm _
  have hstart : (startPayload win record).metrics = [] ∧ (startPayload win record).history = [] ∧
      (startPayload win record).markers = [] ∧ (startPayload win record).validity = {} := by
    cases record with
    | none => exact ⟨rfl, rfl, rfl, rfl⟩
    | some r => exact ⟨rfl, rfl, rfl, rfl⟩
  obtain ⟨hmetrics, hhistory, hmarkers, hvalidity⟩ := hstart
  have hpage : ∀ build : ReportBuild D, build.pagePayload.metrics = build.payload.metrics ∧
      build.pagePayload.history = build.payload.history ∧
      build.pagePayload.markers = build.payload.markers ∧
      build.pagePayload.validity = build.payload.validity := by
    intro build
    rw [ReportBuild.pagePayload.eq_def]
    split
    · exact ⟨rfl, rfl, rfl, rfl⟩
    · exact ⟨rfl, rfl, rfl, rfl⟩
  rw [buildReportPayload, hrecord]
  generalize channels.foldl (ReportBuild.addChannel win nums (entries.map (cutFile missing)) record)
    { payload := startPayload win record } = build at h ⊢
  obtain ⟨hm, hh, hk, hv⟩ := hpage build
  have hpayload : ∀ p, (if build.any then some build.pagePayload else none) = some p →
      p = build.pagePayload := by
    intro p hp
    split at hp
    · exact (Option.some.inj hp).symm
    · cases hp
  refine ⟨h.noLog, ?_, ?_, ?_, ?_, ?_, ?_⟩
  · have hany := h.any
    simp only [Bool.false_eq_true, false_or] at hany
    rw [ite_eq_right_iff, imp_iff_not (Option.some_ne_none _), hany, Ne, not_not]
  · intro p hp
    rw [hpayload p hp, hm, h.metrics, hmetrics, List.nil_append]
  · intro p hp
    rw [hpayload p hp, hh, h.history, hhistory, List.nil_append]
  · intro p hp
    rw [hpayload p hp, hk, h.markers, hmarkers, List.nil_append]
  · intro p hp f hf
    rw [hpayload p hp, hv, h.counts f hf, hvalidity]
    simp only [validityCounts, List.mem_cons, List.not_mem_nil, or_false] at hf
    rcases hf with rfl | rfl | rfl | rfl | rfl | rfl | rfl
    all_goals exact Nat.zero_add _
  · intro p hp x hx
    have hfirst := h.firstHeader
    rw [Option.mem_def] at hx
    rw [hx] at hfirst
    rw [hpayload p hp, ReportBuild.pagePayload, show build.firstHeader = _ from hfirst]
    exact ⟨rfl, rfl, rfl⟩

end

/-- **Headline.** The report of every session folder agrees with the direct recomputation on every
figure. Its figures are made of blocks of one weighting and one detector exactly if no two rows that
count were written under different ones. -/
theorem buildReportPayload_agrees_iff (hs : (sessionLogRuns nums mode).Reachable s)
    (htorn : TornRows nums mode s missing)
    (hfits : ∀ channel w, s.writers channel = some w → w.Fits)
    (hperm : entries.Perm s.folder.files) (channels : List ℤ)
    (parseCalibrationRecord : Bytes → Option SplCalibrationRecordInfo) :
    let disk := entries.map (cutFile missing)
    let record := readCalibration parseCalibrationRecord disk
    (ReportAgrees win nums missing record s.writers channels
          (buildReportPayload win nums parseCalibrationRecord disk channels) ∧
        ∀ channel ∈ channels, Unmixed win nums record disk channel) ↔
      ∀ channel ∈ channels, ∀ w, s.writers channel = some w → w.Settled missing record channel := by
  intro disk record
  have hinv := SessionLogsInv.of_reachable hs
  rw [and_iff_right (reportAgrees hinv htorn hfits hperm parseCalibrationRecord)]
  refine forall₂_congr fun channel _ => ?_
  cases hw : s.writers channel with
  | none =>
    refine iff_of_true (fun x hx => ?_) (fun w h => by cases h)
    rw [channelFiles_session_none hinv hw hperm missing] at hx
    cases hx
  | some w =>
    obtain ⟨done, cur, hholds⟩ := channelFiles_session hinv htorn hw hperm
    obtain ⟨-, -, -, hrows⟩ := hholds.readChannelLog (hfits channel w hw) win.zero
    have hrow : (∀ v, some w = some v → v.Settled missing record channel) ↔
        w.Settled missing record channel :=
      ⟨fun h => h w rfl, fun h v hv => Option.some.inj hv ▸ h⟩
    rw [hrow, settled_iff, Unmixed, hrows]
    simp only [List.forall_mem_map, Option.some.injEq]

/-! ### Two sessions of one channel -/

/-- Fractions for both floating types, and a level that is the mean square itself. -/
def fractionWindow : Meter.WindowNumbers ℚ ℚ where
  zero := 0
  one := 1
  add := (· + ·)
  div := (· / ·)
  max := max
  lt x y := x < y
  ofFloat x := x
  ofCount n := n
  tenLog10 x := x

/-- A session of one channel, in a folder of its own. -/
def oneChannelSession (config : SplLogConfig ℚ) (info : SplLogHeaderInfo ℚ)
    (calls : List (WriterAct ℚ ℚ)) : SessionLogs ℚ ℚ :=
  let run := soloRun fractionLog .lf 1 config info calls
  { folder := run.folder
    writers := Function.update (fun _ => none) 1
      (some ⟨config, info, run.writer, calls, run.written⟩) }

theorem oneChannelSession_reachable (config : SplLogConfig ℚ) (info : SplLogHeaderInfo ℚ)
    (calls : List (WriterAct ℚ ℚ)) :
    (sessionLogRuns fractionLog .lf).Reachable (oneChannelSession config info calls) := by
  induction calls using List.reverseRecOn with
  | nil =>
    have hinit : (sessionLogRuns fractionLog .lf).Reachable
        (⟨{ files := [] }, fun _ => none⟩ : SessionLogs ℚ ℚ) :=
      .init ⟨fun f hf => absurd hf List.not_mem_nil, rfl, fun _ => rfl⟩
    exact hinit.step (a := .start 1 config info) rfl
  | append_singleton calls a ih =>
    refine ih.step (a := .call 1 a) ?_
    simp only [sessionLogRuns, SessionLogs.step, oneChannelSession, Function.update_self,
      Function.update_idem, soloRun, List.foldl_concat]

theorem oneChannelSession_writer {config : SplLogConfig ℚ} {info : SplLogHeaderInfo ℚ}
    {calls : List (WriterAct ℚ ℚ)} {channel : ℤ} {w : ChannelWriter ℚ ℚ}
    (hw : (oneChannelSession config info calls).writers channel = some w) :
    channel = 1 ∧ w = ⟨config, info, (soloRun fractionLog .lf 1 config info calls).writer, calls,
      (soloRun fractionLog .lf 1 config info calls).written⟩ := by
  rw [oneChannelSession] at hw
  dsimp only at hw
  rcases eq_or_ne channel 1 with rfl | hne
  · rw [Function.update_self, Option.some.injEq] at hw
    exact ⟨rfl, hw.symm⟩
  · rw [Function.update_of_ne hne] at hw
    cases hw

/-- A block with a clipped sample and a gap. -/
def loudBlock (index : ℕ) : Block := { flaggedBlock index with flags := 17 }

/-- A block logged A-weighted, and one logged C-weighted. -/
def mixedCalls : List (WriterAct ℚ ℚ) :=
  [.write (loudBlock 0), .reconfigure .C .fast, .write (loudBlock 1)]

/-- Their report has one figure of both, two seconds long, under the last label. -/
theorem buildReportPayload_mixes :
    let s := oneChannelSession calibratedLogConfig secondBlocks mixedCalls
    let result := buildReportPayload fractionWindow fractionLog (fun _ => none)
      (s.folder.files.map (cutFile fun _ => 0)) [1]
    (sessionLogRuns fractionLog .lf).Reachable s ∧
      (∀ p ∈ result.payload, (p.metrics.map fun m => (m.weighting, m.intervalSeconds)) = [(.C, 2)]) ∧
      ¬ (ReportAgrees fractionWindow fractionLog (fun _ => 0) none s.writers [1] result ∧
        ∀ channel ∈ [1], Unmixed fractionWindow fractionLog none
          (s.folder.files.map (cutFile fun _ => 0)) channel) := by
  intro s result
  have hreach : (sessionLogRuns fractionLog .lf).Reachable s := oneChannelSession_reachable _ _ _
  have htorn : TornRows fractionLog .lf s fun _ => 0 := fun _ h => absurd rfl h
  have hfits : ∀ channel w, s.writers channel = some w → w.Fits := by
    intro channel w hw
    obtain ⟨-, rfl⟩ := oneChannelSession_writer hw
    decide +kernel
  have hinv := SessionLogsInv.of_reachable hreach
  refine ⟨hreach, fun p hp => ?_, ?_⟩
  · have hagrees : ReportAgrees fractionWindow fractionLog (fun _ => 0) _ s.writers [1] result :=
      reportAgrees hinv htorn hfits (List.Perm.refl _) _
    rw [hagrees.metrics p hp]
    decide +kernel
  · rintro ⟨-, hunmixed⟩
    obtain ⟨w, hw⟩ : ∃ w, s.writers 1 = some w := ⟨_, rfl⟩
    obtain ⟨-, rfl⟩ := oneChannelSession_writer hw
    obtain ⟨done, cur, hholds⟩ := channelFiles_session hinv htorn hw (List.Perm.refl _)
    obtain ⟨-, -, -, hrows⟩ := hholds.readChannelLog (hfits 1 _ hw) 0
    have h := hunmixed 1 (List.mem_singleton_self _) (some ⟨.A, .fast⟩, loudBlock 0)
      (hrows ▸ by decide +kernel) (some ⟨.C, .fast⟩, loudBlock 1) (hrows ▸ by decide +kernel)
      (by decide) (by decide)
    revert h
    decide

/-- Two blocks, each with a segment of its own, the second torn: what is left agrees. -/
theorem buildReportPayload_agrees_torn :
    let s := oneChannelSession (plainLogConfig 1) secondBlocks
      [.write (loudBlock 0), .write (loudBlock 1)]
    let missing := fun name : Bytes => if name = bytes "ch1.gen0.seg1.csv" then 3 else 0
    let disk := s.folder.files.map (cutFile missing)
    ReportAgrees fractionWindow fractionLog missing (readCalibration (fun _ => none) disk) s.writers
        [1, 2, 1] (buildReportPayload fractionWindow fractionLog (fun _ => none) disk [1, 2, 1]) ∧
      ∀ channel ∈ [1, 2, 1], Unmixed fractionWindow fractionLog
        (readCalibration (fun _ => none) disk) disk channel := by
  intro s missing disk
  have htorn : TornRows fractionLog .lf s missing := by
    intro name hname
    have hstream : name = bytes "ch1.gen0.seg1.csv" := by
      by_contra hne
      exact hname (if_neg hne)
    refine ⟨1, _, loudBlock 1, rfl, ?_, ?_, ?_, ?_⟩
    · rw [hstream]
      decide +kernel
    · decide +kernel
    · decide +kernel
    · rw [hstream]
      decide +kernel
  refine (buildReportPayload_agrees_iff (oneChannelSession_reachable _ _ _) htorn ?_
    (List.Perm.refl _) [1, 2, 1] fun _ => none).mpr ?_
  · intro channel w hw
    obtain ⟨-, rfl⟩ := oneChannelSession_writer hw
    decide +kernel
  · intro channel _ w hw
    obtain ⟨-, rfl⟩ := oneChannelSession_writer hw
    have hdisk : ∀ x ∈ ChannelWriter.onDisk missing (D := ℚ) (F := ℚ) ⟨plainLogConfig 1, secondBlocks,
        (soloRun fractionLog .lf 1 (plainLogConfig 1) secondBlocks
          [.write (loudBlock 0), .write (loudBlock 1)]).writer,
        [.write (loudBlock 0), .write (loudBlock 1)],
        (soloRun fractionLog .lf 1 (plainLogConfig 1) secondBlocks
          [.write (loudBlock 0), .write (loudBlock 1)]).written⟩, x.1 = ⟨.A, .fast⟩ := by
      decide +kernel
    exact settled_iff.mpr fun x hx y hy _ _ => (hdisk x hx).trans (hdisk y hy).symm

end RtaTool
