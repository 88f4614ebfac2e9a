import RtaTool.Export.SplLogHeaderParse

/-!
# The report's numbers

`SplReportPayloadBuilder.cpp`: the numbers of a report, out of a session's folder. Every channel's log
is read whole, the blocks in the bracket of a failed calibration are marked in memory, and one call
of `combineBlocks` makes the channel's figures; the history and the markers are a pass of their own
over the same blocks.

Floating point is a parameter, `WindowNumbers` for what `combineBlocks` and the exposure level do with
doubles and `LogNumbers` for the level of a mean square. The text of the calibration record is read by
a function that is a parameter too.

The texts that identify the report and the rows copied from the live view are left out.

## Main definitions

* `Meter.combineBlocks` -- all of `rta::meter::combineBlocks`
* `readCalibration`, `bracketApplies`, `markBracket`
* `appendHistoryAndMarkers`, `buildReportPayload`

## Main results

* `hasFlag_markBracket` -- no other flag of a block is touched
* `appendHistoryAndMarkers_eq` -- a point for every block that is not left out, and a marker for
  every overload and gap
-/

namespace RtaTool

/-! ### A window's figures -/

/-- `flagMask(BlockFlag::UnderRange)`. -/
def underRangeFlag : UInt32 := 2

/-- `hasFlag(flags, f)`. -/
def hasFlag (flags mask : UInt32) : Bool := flags &&& mask != 0

namespace Meter

/-- The operations on doubles and floats. -/
structure WindowNumbers (D F : Type) where
  zero : D
  one : D
  add : D → D → D
  div : D → D → D
  max : D → D → D
  lt : D → D → Bool
  ofFloat : F → D
  ofCount : ℕ → D
  /-- `10.0 * std::log10(x)`. -/
  tenLog10 : D → D

/-- `WindowResult`. -/
@[ext]
structure WindowResult (D : Type) where
  leqDb : Option D
  maxFastDb : D
  maxSlowDb : D
  peakDb : D
  blocks : ℕ
  samples : ℕ
  seconds : D
  bufferFill : D
  excludedBlocks : ℕ
  overloadBlocks : ℕ
  underRangeBlocks : ℕ
  droppedBlocks : ℕ
  gapBlocks : ℕ
  droppedSamplesTotal : ℕ
  deriving DecidableEq

/-- What the loop of `combineBlocks` adds up. -/
structure WindowSums (D : Type) where
  sumSquares : D
  samples : ℕ := 0
  maxFast : D
  maxSlow : D
  peak : D
  blocks : ℕ := 0
  excludedBlocks : ℕ := 0
  overloadBlocks : ℕ := 0
  underRangeBlocks : ℕ := 0
  droppedBlocks : ℕ := 0
  gapBlocks : ℕ := 0
  droppedSamplesTotal : ℕ := 0

variable {D F : Type} (win : WindowNumbers D F) (nums : LogNumbers D F)

/-- `(flags & kExcludingFlags) != 0u`. -/
def isExcluded (b : Block D F) : Bool := hasFlag b.flags calibrationInvalidFlag

/-- One block of the loop. -/
def WindowSums.addBlock (r : WindowSums D) (b : Block D F) : WindowSums D :=
  let r := { r with
    overloadBlocks := if hasFlag b.flags overloadFlag then r.overloadBlocks + 1 else r.overloadBlocks
    underRangeBlocks :=
      if hasFlag b.flags underRangeFlag then r.underRangeBlocks + 1 else r.underRangeBlocks
    droppedBlocks := if hasFlag b.flags droppedFlag then r.droppedBlocks + 1 else r.droppedBlocks
    gapBlocks := if hasFlag b.flags gapFlag then r.gapBlocks + 1 else r.gapBlocks
    droppedSamplesTotal := r.droppedSamplesTotal + b.droppedSamples }
  if isExcluded b then { r with excludedBlocks := r.excludedBlocks + 1 }
  else
    { r with
      sumSquares := win.add r.sumSquares b.sumSquares
      samples := r.samples + b.blockSamples
      blocks := r.blocks + 1
      maxFast := win.max r.maxFast (win.ofFloat b.maxFastDb)
      maxSlow := win.max r.maxSlow (win.ofFloat b.maxSlowDb)
      peak := win.max r.peak (win.ofFloat b.peakDb) }

/-- The locals before the loop. -/
def WindowSums.start : WindowSums D :=
  { sumSquares := win.zero, maxFast := nums.levelFloorDb, maxSlow := nums.levelFloorDb
    peak := nums.levelFloorDb }

/-- `combineBlocks(blocks, sampleRate, referenceOffsetDb, windowBlocks)`. -/
def combineBlocks (blocks : List (Block D F)) (sampleRate referenceOffsetDb : D)
    (windowBlocks : ℕ) : WindowResult D :=
  let r : WindowSums D := blocks.foldl (WindowSums.addBlock win) (WindowSums.start win nums)
  let fill := win.div (win.ofCount blocks.length) (win.ofCount windowBlocks)
  { leqDb :=
      if 0 < r.samples ∧ win.lt win.zero r.sumSquares then
        some (nums.levelDb r.sumSquares r.samples referenceOffsetDb)
      else if 0 < r.samples then some (win.add nums.levelFloorDb referenceOffsetDb)
      else none
    maxFastDb :=
      if 0 < r.samples then win.add r.maxFast referenceOffsetDb else nums.levelFloorDb
    maxSlowDb :=
      if 0 < r.samples then win.add r.maxSlow referenceOffsetDb else nums.levelFloorDb
    peakDb := if 0 < r.samples then win.add r.peak referenceOffsetDb else nums.levelFloorDb
    blocks := r.blocks
    samples := r.samples
    seconds :=
      if win.lt win.zero sampleRate then win.div (win.ofCount r.samples) sampleRate else win.zero
    bufferFill :=
      if 0 < windowBlocks then if win.lt win.one fill then win.one else fill else win.zero
    excludedBlocks := r.excludedBlocks
    overloadBlocks := r.overloadBlocks
    underRangeBlocks := r.underRangeBlocks
    droppedBlocks := r.droppedBlocks
    gapBlocks := r.gapBlocks
    droppedSamplesTotal := r.droppedSamplesTotal }

end Meter

/-! ### The calibration record -/

/-- `CalibrationVerdict`. -/
inductive CalibrationVerdict
  | pass
  | fail
  deriving DecidableEq, Repr

/-- `CalibrationRecordRefusal`. -/
inductive CalibrationRecordRefusal
  | none
  | channelMismatch
  | noMeasurementChannel
  deriving DecidableEq, Repr

/-- What the builder reads of `CalibrationReportFields`. -/
structure CalibrationReportFields where
  performed : Bool := false
  verdict : Option CalibrationVerdict := none
  deriving DecidableEq

/-- `SplCalibrationRecordInfo`. -/
structure SplCalibrationRecordInfo where
  fields : CalibrationReportFields
  channel : ℤ := 0
  startBlockIndex : ℕ := 0
  endBlockIndex : ℕ := 0
  refusal : CalibrationRecordRefusal := .none
  offsetApplied : Bool := true
  deriving DecidableEq

/-- The record beside the logs, if there is one and it can be read. -/
def readCalibration (parseCalibrationRecord : Bytes → Option SplCalibrationRecordInfo)
    (entries : List (Bytes × Bytes)) : Option SplCalibrationRecordInfo :=
  (entries.find? fun f => f.1 = bytes "calibration.txt").bind fun f => parseCalibrationRecord f.2

/-- `bracketApplies`: the record is of this channel, and its check failed. -/
def bracketApplies (record : Option SplCalibrationRecordInfo) (channel : ℤ) : Bool :=
  match record with
  | none => false
  | some r => r.fields.performed && decide (r.channel = channel) &&
      decide (r.fields.verdict = some .fail)

/-- A block is in the record's bracket. -/
def SplCalibrationRecordInfo.InBracket (r : SplCalibrationRecordInfo) {D F : Type}
    (b : Block D F) : Prop :=
  r.startBlockIndex ≤ b.blockIndex ∧ b.blockIndex ≤ r.endBlockIndex

instance (r : SplCalibrationRecordInfo) {D F : Type} (b : Block D F) : Decidable (r.InBracket b) :=
  inferInstanceAs (Decidable (_ ∧ _))

/-- A block as the report sees it: marked if a failed check brackets it. -/
def markBracket (record : Option SplCalibrationRecordInfo) (channel : ℤ) {D F : Type}
    (b : Block D F) : Block D F :=
  match record with
  | none => b
  | some r =>
    if bracketApplies record channel ∧ r.InBracket b then
      { b with flags := b.flags ||| calibrationInvalidFlag }
    else b

theorem hasFlag_or (flags mask m : UInt32) :
    hasFlag (flags ||| mask) m = (hasFlag flags m || hasFlag mask m) := by
  have hdistrib : (flags ||| mask) &&& m = flags &&& m ||| mask &&& m := by
    rw [← UInt32.toBitVec_inj]
    ext i
    simp [Bool.and_or_distrib_right]
  rw [hasFlag, hasFlag, hasFlag, hdistrib, Bool.eq_iff_iff, Bool.or_eq_true, bne_iff_ne, bne_iff_ne,
    bne_iff_ne, Ne, UInt32.or_eq_zero_iff, not_and_or]

/-- The mark is the only flag that is touched. -/
theorem hasFlag_markBracket (record : Option SplCalibrationRecordInfo) (channel : ℤ) {D F : Type}
    (b : Block D F) {m : UInt32} (hm : hasFlag calibrationInvalidFlag m = false) :
    hasFlag (markBracket record channel b).flags m = hasFlag b.flags m := by
  cases record with
  | none => rfl
  | some r =>
    rw [markBracket]
    split
    · rw [hasFlag_or, hm, Bool.or_false]
    · rfl

/-! ### The payload -/

/-- `ReportMetricResult`, less what is never set from a log. -/
structure ReportMetricResult (D : Type) where
  id : Bytes
  weighting : WeightingType := .A
  detector : TimeWeighting := .fast
  intervalSeconds : D
  leqDb : Option D
  lmaxDb : Option D
  lpeakDb : Option D
  selDb : Option D
  deriving DecidableEq

/-- `ReportHistoryPoint`. -/
structure ReportHistoryPoint (D : Type) where
  blockIndex : ℕ
  valueDb : D
  deriving DecidableEq

/-- `ReportHistorySeries`. -/
structure ReportHistorySeries (D : Type) where
  metricId : Bytes
  points : List (ReportHistoryPoint D)
  deriving DecidableEq

/-- `SplMarkerKind`. -/
inductive SplMarkerKind
  | alarm
  | overload
  | note
  | reset
  | gap
  deriving DecidableEq, Repr

/-- What the builder sets of `SplMarker`. -/
structure ReportMarker where
  blockIndex : ℕ
  kind : SplMarkerKind
  quantity : Bytes
  deriving DecidableEq

/-- `ReportValidity`. -/
structure ReportValidity where
  totalBlocks : ℕ := 0
  excludedBlocks : ℕ := 0
  overloadBlocks : ℕ := 0
  underRangeBlocks : ℕ := 0
  droppedBlocks : ℕ := 0
  gapBlocks : ℕ := 0
  droppedSamplesTotal : ℕ := 0
  segmentPaths : List Bytes := []
  bytesDiscarded : ℕ := 0
  excludedBlockRange : Option (ℕ × ℕ) := none
  deriving DecidableEq

/-- `ReportPayload`. -/
structure ReportPayload (D : Type) where
  sampleRate : D
  calibration : CalibrationReportFields := {}
  calibrationChannelRefusal : CalibrationRecordRefusal := .none
  calibrationOffsetApplied : Bool := true
  referenceOffsetDb : D
  calibrated : Bool := false
  metrics : List (ReportMetricResult D) := []
  history : List (ReportHistorySeries D) := []
  markers : List ReportMarker := []
  validity : ReportValidity := {}
  logSegments : List Bytes := []

/-- `SplReportBuildResult`. -/
structure SplReportBuildResult (D : Type) where
  payload : Option (ReportPayload D)
  channelsWithNoLog : List ℤ

section

variable {D F : Type} (win : Meter.WindowNumbers D F) (nums : LogNumbers D F)

/-- The markers of one block. A marker's quantity has room for 31 characters. -/
def blockMarkers (channel : ℤ) (b : Block D F) : List ReportMarker :=
  (if hasFlag b.flags overloadFlag then
    [⟨b.blockIndex, .overload, (channelStem channel).take 31⟩] else []) ++
  (if hasFlag b.flags gapFlag then
    [⟨b.blockIndex, .gap, (channelStem channel).take 31⟩] else [])

/-- The level of one block. -/
def blockLevelDb (referenceOffsetDb : D) (b : Block D F) : D :=
  if 0 < b.blockSamples then nums.levelDb b.sumSquares b.blockSamples referenceOffsetDb
  else nums.levelFloorDb

/-- One block of `appendHistoryAndMarkers`' loop. -/
def appendBlock (channel : ℤ) (referenceOffsetDb : D)
    (r : ReportHistorySeries D × List ReportMarker) (b : Block D F) :
    ReportHistorySeries D × List ReportMarker :=
  ({ r.1 with
      points :=
        if Meter.isExcluded b then r.1.points
        else r.1.points ++ [⟨b.blockIndex, blockLevelDb nums referenceOffsetDb b⟩] },
    r.2 ++ blockMarkers channel b)

/-- `appendHistoryAndMarkers(channel, blocks, referenceOffsetDb, payload)`. -/
def appendHistoryAndMarkers (channel : ℤ) (blocks : List (Block D F)) (referenceOffsetDb : D)
    (payload : ReportPayload D) : ReportPayload D :=
  let r := blocks.foldl (appendBlock nums channel referenceOffsetDb)
    (⟨channelStem channel, []⟩, payload.markers)
  { payload with
    markers := r.2
    history := if r.1.points = [] then payload.history else payload.history ++ [r.1] }

theorem foldl_appendBlock (channel : ℤ) (referenceOffsetDb : D) (blocks : List (Block D F))
    (series : ReportHistorySeries D) (markers : List ReportMarker) :
    blocks.foldl (appendBlock nums channel referenceOffsetDb) (series, markers) =
      ({ series with
          points := series.points ++ (blocks.filter fun b => !Meter.isExcluded b).map fun b =>
            ⟨b.blockIndex, blockLevelDb nums referenceOffsetDb b⟩ },
        markers ++ blocks.flatMap (blockMarkers channel)) := by
  induction blocks generalizing series markers with
  | nil => simp
  | cons b blocks ih =>
    rw [List.foldl_cons, appendBlock, ih, List.flatMap_cons, List.append_assoc, List.filter_cons]
    cases Meter.isExcluded b with
    | true => simp
    | false => simp

/-- The history and the markers of a channel: a point for every block that is not left out, a marker
for every overload and every gap. -/
theorem appendHistoryAndMarkers_eq (channel : ℤ) (blocks : List (Block D F)) (referenceOffsetDb : D)
    (payload : ReportPayload D) :
    let points := (blocks.filter fun b => !Meter.isExcluded b).map fun b =>
      (⟨b.blockIndex, blockLevelDb nums referenceOffsetDb b⟩ : ReportHistoryPoint D)
    appendHistoryAndMarkers nums channel blocks referenceOffsetDb payload =
      { payload with
        markers := payload.markers ++ blocks.flatMap (blockMarkers channel)
        history := payload.history ++ if points = [] then [] else [⟨channelStem channel, points⟩] } := by
  intro points
  rw [appendHistoryAndMarkers, foldl_appendBlock]
  dsimp only
  rw [List.nil_append]
  split
  · rw [List.append_nil]
  · rfl

/-- The locals of `buildReportPayload`'s loop. -/
structure ReportBuild (D : Type) where
  payload : ReportPayload D
  channelsWithNoLog : List ℤ := []
  firstHeader : Option (SplLogHeaderParsed D) := none
  any : Bool := false

/-- The row of a channel's figures. -/
def metricRow (channel : ℤ) (header : Option (SplLogHeaderParsed D))
    (whole : Meter.WindowResult D) : ReportMetricResult D where
  id := channelStem channel
  weighting := (header.map (·.info.weighting)).getD .A
  detector := (header.map (·.info.detector)).getD .fast
  intervalSeconds := whole.seconds
  leqDb := whole.leqDb
  lmaxDb := some whole.maxFastDb
  lpeakDb := some whole.peakDb
  selDb :=
    if win.lt win.zero whole.seconds then
      whole.leqDb.map fun leq => win.add leq (win.tenLog10 whole.seconds)
    else none

/-- One channel of the loop. -/
def ReportBuild.addChannel (entries : List (Bytes × Bytes))
    (record : Option SplCalibrationRecordInfo) (build : ReportBuild D) (channel : ℤ) :
    ReportBuild D :=
  let log := readChannelLog nums (parseLogHeader nums win.zero) entries channel
  if log.segmentPaths = [] then
    { build with channelsWithNoLog := build.channelsWithNoLog ++ [channel] }
  else
    let blocks := log.blocks.map (markBracket record channel)
    let range := match record with
      | some r => if bracketApplies record channel then some (r.startBlockIndex, r.endBlockIndex)
          else build.payload.validity.excludedBlockRange
      | none => build.payload.validity.excludedBlockRange
    let referenceOffsetDb := (log.header.map (·.referenceOffsetDb)).getD win.zero
    let sampleRate := (log.header.map (·.info.sampleRate)).getD win.zero
    let whole := Meter.combineBlocks win nums blocks sampleRate referenceOffsetDb blocks.length
    let validity := build.payload.validity
    let payload := appendHistoryAndMarkers nums channel blocks referenceOffsetDb
      { build.payload with
        logSegments := build.payload.logSegments ++ log.segmentRawBytes
        validity :=
          { totalBlocks := validity.totalBlocks + blocks.length
            excludedBlocks := validity.excludedBlocks + whole.excludedBlocks
            overloadBlocks := validity.overloadBlocks + whole.overloadBlocks
            underRangeBlocks := validity.underRangeBlocks + whole.underRangeBlocks
            droppedBlocks := validity.droppedBlocks + whole.droppedBlocks
            gapBlocks := validity.gapBlocks + whole.gapBlocks
            droppedSamplesTotal := validity.droppedSamplesTotal + whole.droppedSamplesTotal
            segmentPaths := validity.segmentPaths ++ log.segmentPaths
            bytesDiscarded := validity.bytesDiscarded + log.bytesDiscarded
            excludedBlockRange := range } }
    { build with
      any := true
      firstHeader := build.firstHeader.or log.header
      payload := { payload with metrics := payload.metrics ++ [metricRow win channel log.header whole] } }

/-- The payload before the loop: what the record says of the calibration. -/
def startPayload (record : Option SplCalibrationRecordInfo) : ReportPayload D :=
  match record with
  | none => { sampleRate := win.zero, referenceOffsetDb := win.zero }
  | some r =>
    { sampleRate := win.zero
      referenceOffsetDb := win.zero
      calibration := r.fields
      calibrationChannelRefusal := r.refusal
      calibrationOffsetApplied := r.offsetApplied }

/-- The payload after it: the page is labelled by the first header. -/
def ReportBuild.pagePayload (build : ReportBuild D) : ReportPayload D :=
  match build.firstHeader with
  | none => build.payload
  | some header =>
    { build.payload with
      referenceOffsetDb := header.referenceOffsetDb
      calibrated := header.calibrated
      sampleRate := header.info.sampleRate }

/-- `buildReportPayload(request)`, over a listing of the session's folder. -/
def buildReportPayload (parseCalibrationRecord : Bytes → Option SplCalibrationRecordInfo)
    (entries : List (Bytes × Bytes)) (channels : List ℤ) : SplReportBuildResult D :=
  let record := readCalibration parseCalibrationRecord entries
  let build : ReportBuild D := channels.foldl (ReportBuild.addChannel win nums entries record)
    { payload := startPayload win record }
  { payload := if build.any then some build.pagePayload else none
    channelsWithNoLog := build.channelsWithNoLog }

end

end RtaTool
