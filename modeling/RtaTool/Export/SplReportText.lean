import RtaTool.Lib.StreamText
import RtaTool.Export.SplReportPayload
import RtaTool.Measure.SplAlarm

/-!
# The report document

`SplReport.cpp`, `SplReportSections.cpp`, `SplReportHistorySections.cpp` and `SplReportHash.cpp`: a
payload as one HTML text. Nine sections are put together from texts, the payload's own ones escaped.
The arithmetic of doubles is a parameter; how they are printed is not.

## Main definitions

* `Payload` -- what the renderers read of `ReportPayload`
* `escapeHtml`, `section`, `kv`, `renderIdentification`, ..., `renderIntegrity`
* `documentShell`, `renderReport`
-/

namespace RtaTool

namespace SplReport

/-! ### Doubles -/

/-- The operations on doubles that the renderers use, and `operator<<` of a stream. -/
structure DoubleMath where
  add : Binary64Datum → Binary64Datum → Binary64Datum
  sub : Binary64Datum → Binary64Datum → Binary64Datum
  mul : Binary64Datum → Binary64Datum → Binary64Datum
  div : Binary64Datum → Binary64Datum → Binary64Datum
  lt : Binary64Datum → Binary64Datum → Bool
  eq : Binary64Datum → Binary64Datum → Bool
  ofInt : ℤ → Binary64Datum
  toInt : Binary64Datum → ℤ
  llround : Binary64Datum → ℤ
  stream : Binary64Datum → Bytes

namespace DoubleMath

variable (math : DoubleMath)

/-- `std::min`. -/
def min (x y : Binary64Datum) : Binary64Datum := if math.lt y x then y else x

/-- `std::max`. -/
def max (x y : Binary64Datum) : Binary64Datum := if math.lt x y then y else x

end DoubleMath

/-- `0.5`. -/
def half : Binary64Datum :=
  .finite
    { negative := false, significand := 2 ^ 52, exponent := -53
      significand_lt := by norm_num, exponent_ge := by norm_num, exponent_le := by norm_num
      normal := .inr le_rfl }

/-! ### The payload -/

/-- `CalibrationLevel`. -/
structure CalibrationLevel where
  nominalDb : Binary64Datum
  operatorSupplied : Bool

/-- `CalibrationCheck`, less its offset. -/
structure CalibrationCheck where
  level : CalibrationLevel
  measuredLevelDb : Binary64Datum
  unixMs : ℕ

/-- `CalibrationReportFields`. -/
structure Calibration where
  performed : Bool
  start : CalibrationCheck
  finish : CalibrationCheck
  driftDb : Binary64Datum
  verdict : Option CalibrationVerdict
  clause : Bytes

/-- `SplMetricSpec`. -/
structure MetricSpec where
  id : Bytes
  weighting : WeightingType
  detector : TimeWeighting
  windowBlocks : ℕ

/-- `SplAlarmSpec`. -/
structure AlarmSpec where
  metricId : Bytes
  limitDb : Binary64Datum
  windowBlocks : ℕ

/-- `DoseSettings`. -/
structure DoseSettings where
  criterionLevelDb : Binary64Datum
  criterionSeconds : Binary64Datum
  q : Binary64Datum
  thresholdDb : Binary64Datum

/-- `SplConfig`. -/
structure Config where
  blockSeconds : Binary64Datum
  referenceOffsetDb : Binary64Datum
  calibrated : Bool
  logSpanSeconds : Binary64Datum
  segmentBlocks : ℕ
  metrics : List MetricSpec
  alarms : List AlarmSpec
  dose : Vector DoseSettings 2

/-- `ReportAlarmResult`. -/
structure AlarmResult where
  metricId : Bytes
  state : SplAlarmState
  headroomDb : Option Binary64Datum

/-- `ReportMetricResult`. -/
structure MetricResult where
  id : Bytes
  weighting : WeightingType
  detector : TimeWeighting
  intervalSeconds : Binary64Datum
  leqDb : Option Binary64Datum
  lmaxDb : Option Binary64Datum
  lminDb : Option Binary64Datum
  lpeakDb : Option Binary64Datum
  selDb : Option Binary64Datum
  lnDb : Vector (Option Binary64Datum) 6
  lnPercents : Vector Binary64Datum 6

/-- `ReportDoseResult`. -/
structure DoseResult where
  label : Bytes
  settings : DoseSettings
  percent : Option Binary64Datum
  projectedPercent : Option Binary64Datum
  elapsedSeconds : Binary64Datum
  twaDb : Option Binary64Datum
  exposureLevel8hDb : Option Binary64Datum

/-- `ReportHistoryPoint`. -/
structure HistoryPoint where
  blockIndex : ℕ
  valueDb : Binary64Datum

/-- `SplMarker`. -/
structure Marker where
  blockIndex : ℕ
  kind : SplMarkerKind

/-- `ReportValidity::ExcludedRange`. -/
structure ExcludedRange where
  startBlockIndex : ℕ
  endBlockIndex : ℕ

/-- `ReportValidity`. -/
structure Validity where
  totalBlocks : ℕ
  excludedBlocks : ℕ
  overloadBlocks : ℕ
  underRangeBlocks : ℕ
  droppedBlocks : ℕ
  gapBlocks : ℕ
  droppedSamplesTotal : ℕ
  refusedMetrics : ℕ
  segmentPaths : List Bytes
  bytesDiscarded : ℕ
  lnDoseAlarmFromLiveSession : Bool
  excludedBlockRange : Option ExcludedRange

/-- `ReportPayload`. A series of the history is its points. -/
structure Payload where
  venue : Bytes
  event : Bytes
  operatorName : Bytes
  company : Bytes
  engineer : Bytes
  productionCompany : Bytes
  notes : Bytes
  appName : Bytes
  appVersion : Bytes
  buildId : Bytes
  device : Bytes
  channel : Bytes
  sampleRate : Binary64Datum
  calibration : Calibration
  calibrationChannelRefusal : CalibrationRecordRefusal
  calibrationOffsetApplied : Bool
  config : Config
  alarms : List AlarmResult
  metrics : List MetricResult
  dose : Vector DoseResult 2
  history : List (List HistoryPoint)
  markers : List Marker
  validity : Validity
  logSegments : List Bytes

/-! ### The hash -/

/-- `kK`. -/
def kK : List UInt32 :=
  [0x428a2f98, 0x71374491, 0xb5c0fbcf, 0xe9b5dba5, 0x3956c25b, 0x59f111f1, 0x923f82a4, 0xab1c5ed5,
    0xd807aa98, 0x12835b01, 0x243185be, 0x550c7dc3, 0x72be5d74, 0x80deb1fe, 0x9bdc06a7, 0xc19bf174,
    0xe49b69c1, 0xefbe4786, 0x0fc19dc6, 0x240ca1cc, 0x2de92c6f, 0x4a7484aa, 0x5cb0a9dc, 0x76f988da,
    0x983e5152, 0xa831c66d, 0xb00327c8, 0xbf597fc7, 0xc6e00bf3, 0xd5a79147, 0x06ca6351, 0x14292967,
    0x27b70a85, 0x2e1b2138, 0x4d2c6dfc, 0x53380d13, 0x650a7354, 0x766a0abb, 0x81c2c92e, 0x92722c85,
    0xa2bfe8a1, 0xa81a664b, 0xc24b8b70, 0xc76c51a3, 0xd192e819, 0xd6990624, 0xf40e3585, 0x106aa070,
    0x19a4c116, 0x1e376c08, 0x2748774c, 0x34b0bcb5, 0x391c0cb3, 0x4ed8aa4a, 0x5b9cca4f, 0x682e6ff3,
    0x748f82ee, 0x78a5636f, 0x84c87814, 0x8cc70208, 0x90befffa, 0xa4506ceb, 0xbef9a3f7, 0xc67178f2]

/-- `rotr(x, n)`. -/
def rotr (x n : UInt32) : UInt32 := (x >>> n) ||| (x <<< (32 - n))

/-- The eight words of `h`, or of a round. -/
structure HashWords where
  a : UInt32
  b : UInt32
  c : UInt32
  d : UInt32
  e : UInt32
  f : UInt32
  g : UInt32
  hh : UInt32

/-- `h` before the first chunk. -/
def HashWords.start : HashWords :=
  { a := 0x6a09e667, b := 0xbb67ae85, c := 0x3c6ef372, d := 0xa54ff53a
    e := 0x510e527f, f := 0x9b05688c, g := 0x1f83d9ab, hh := 0x5be0cd19 }

/-- The padded message: a one bit, zeros, and the length in bits. -/
def paddedMessage (data : Bytes) : Bytes :=
  let bitLen : UInt64 := UInt64.ofNat data.length * 8
  let msg := data ++ [0x80]
  msg ++ List.replicate ((120 - msg.length % 64) % 64) (0 : UInt8) ++
    ([56, 48, 40, 32, 24, 16, 8, 0] : List UInt64).map fun shift => (bitLen >>> shift).toUInt8

/-- Word `i` of a chunk. -/
def chunkWord (chunk : List UInt8) (i : ℕ) : UInt32 :=
  ((chunk.getD (4 * i) 0).toUInt32 <<< 24) ||| ((chunk.getD (4 * i + 1) 0).toUInt32 <<< 16) |||
    ((chunk.getD (4 * i + 2) 0).toUInt32 <<< 8) ||| (chunk.getD (4 * i + 3) 0).toUInt32

/-- One more word of `w`. -/
def extendWords (w : List UInt32) : List UInt32 :=
  let s := w.length
  let s0 := rotr (w.getD (s - 15) 0) 7 ^^^ rotr (w.getD (s - 15) 0) 18 ^^^ (w.getD (s - 15) 0 >>> 3)
  let s1 := rotr (w.getD (s - 2) 0) 17 ^^^ rotr (w.getD (s - 2) 0) 19 ^^^ (w.getD (s - 2) 0 >>> 10)
  w ++ [w.getD (s - 16) 0 + s0 + w.getD (s - 7) 0 + s1]

/-- One round, with `kK[s]` and `w[s]`. -/
def HashWords.round (r : HashWords) (kw : UInt32 × UInt32) : HashWords :=
  let bigS1 := rotr r.e 6 ^^^ rotr r.e 11 ^^^ rotr r.e 25
  let ch := (r.e &&& r.f) ^^^ (~~~r.e &&& r.g)
  let temp1 := r.hh + bigS1 + ch + kw.1 + kw.2
  let bigS0 := rotr r.a 2 ^^^ rotr r.a 13 ^^^ rotr r.a 22
  let maj := (r.a &&& r.b) ^^^ (r.a &&& r.c) ^^^ (r.b &&& r.c)
  let temp2 := bigS0 + maj
  { a := temp1 + temp2, b := r.a, c := r.b, d := r.c
    e := r.d + temp1, f := r.e, g := r.f, hh := r.g }

/-- One chunk. -/
def HashWords.addChunk (h : HashWords) (chunk : List UInt8) : HashWords :=
  let w := extendWords^[48] ((List.range 16).map (chunkWord chunk))
  let r := (kK.zip w).foldl HashWords.round h
  { a := h.a + r.a, b := h.b + r.b, c := h.c + r.c, d := h.d + r.d
    e := h.e + r.e, f := h.f + r.f, g := h.g + r.g, hh := h.hh + r.hh }

/-- `sha256Digest(data)`. -/
def sha256Digest (data : Bytes) : List UInt32 :=
  let msg := paddedMessage data
  let chunks := (List.range (msg.length / 64)).map fun i => (msg.drop (64 * i)).take 64
  let h := chunks.foldl HashWords.addChunk HashWords.start
  [h.a, h.b, h.c, h.d, h.e, h.f, h.g, h.hh]

/-- `kHex[nibble]`. -/
def kHex (nibble : UInt32) : UInt8 :=
  if nibble < 10 then 48 + nibble.toUInt8 else 87 + nibble.toUInt8

/-- `sha256Hex(data)`. -/
def sha256Hex (data : Bytes) : Bytes :=
  (sha256Digest data).flatMap fun word =>
    ([28, 24, 20, 16, 12, 8, 4, 0] : List UInt32).map fun shift => kHex ((word >>> shift) &&& 0xf)

example : sha256Hex (bytes "abc") =
    bytes "ba7816bf8f01cfea414140de5dae2223b00361a396177a9cb410ff61f20015ad" := by
  decide +kernel

/-! ### The style and the script -/

/-- `kReportStyle`. -/
def kReportStyle : Bytes :=
  ["\n",
    ":root \x7b\n",
    "  --bg: #17181c; --panel: #1f2126; --ink: #e8e6e1; --dim: #9a988f;\n",
    "  --line: #2c2e34; --amber: #e0a028; --ice: #6fb8c9; --bad: #c4453a;\n",
    "\x7d\n",
    "* \x7b box-sizing: border-box; \x7d\n",
    "body \x7b\n",
    "  margin: 0; padding: 24px; background: var(--bg); color: var(--ink);\n",
    "  font-family: \"IBM Plex Sans\", Arial, sans-serif; font-size: 14px;\n",
    "  line-height: 1.45;\n",
    "\x7d\n",
    "h1 \x7b font-family: \"Saira Condensed\", Arial, sans-serif; font-weight: 600;\n",
    "  letter-spacing: 0.02em; margin: 0 0 4px 0; \x7d\n",
    "h2 \x7b font-family: \"Saira Condensed\", Arial, sans-serif; font-weight: 600;\n",
    "  border-bottom: 1px solid var(--line); padding-bottom: 4px; margin: 0 0 10px 0; \x7d\n",
    ".subtitle \x7b color: var(--dim); margin: 0 0 20px 0; \x7d\n",
    ".section \x7b background: var(--panel); border: 1px solid var(--line);\n",
    "  border-radius: 6px; padding: 16px 20px; margin: 0 0 16px 0; \x7d\n",
    ".section.collapsed > *:not(h2) \x7b display: none; \x7d\n",
    ".kv \x7b display: grid; grid-template-columns: 220px 1fr; gap: 4px 12px;\n",
    "  margin: 2px 0; \x7d\n",
    ".kv .label \x7b color: var(--dim); \x7d\n",
    ".kv .value \x7b font-family: \"IBM Plex Mono\", monospace; \x7d\n",
    "table \x7b border-collapse: collapse; width: 100%; margin: 6px 0; \x7d\n",
    "th, td \x7b text-align: left; padding: 4px 10px; border-bottom: 1px solid var(--line);\n",
    "  font-family: \"IBM Plex Mono\", monospace; font-size: 13px; \x7d\n",
    "th \x7b color: var(--dim); font-family: \"IBM Plex Sans\", sans-serif; ",
    "font-weight: 600; \x7d\n",
    ".state-fired \x7b color: var(--bad); font-weight: 600; \x7d\n",
    ".state-clear \x7b color: var(--ink); \x7d\n",
    ".state-filling \x7b color: var(--dim); \x7d\n",
    ".absent \x7b color: var(--dim); font-style: italic; \x7d\n",
    ".honesty \x7b color: var(--dim); font-size: 12px; border-top: 1px solid var(--line);\n",
    "  padding-top: 10px; margin-top: 10px; \x7d\n",
    ".hash \x7b font-family: \"IBM Plex Mono\", monospace; word-break: break-all; \x7d\n",
    ".strip \x7b width: 100%; height: 120px; background: #14151a; border-radius: 4px; \x7d\n",
    ".strip .trace \x7b fill: none; stroke: var(--ice); stroke-width: 1.5; \x7d\n",
    ".strip .marker-alarm \x7b stroke: var(--bad); \x7d\n",
    ".strip .marker-overload \x7b stroke: var(--amber); \x7d\n",
    ".strip .marker-gap \x7b stroke: var(--dim); stroke-dasharray: 2 2; \x7d\n",
    ".strip .excluded-region \x7b fill: var(--bad); opacity: 0.12; \x7d\n"].flatMap bytes

/-- `kReportScript`. -/
def kReportScript : Bytes :=
  ["\n",
    "(function () \x7b\n",
    "  \"use strict\";\n",
    "  var sections = document.querySelectorAll(\".section > h2\");\n",
    "  for (var i = 0; i < sections.length; i++) \x7b\n",
    "    var heading = sections[i];\n",
    "    heading.style.cursor = \"pointer\";\n",
    "    heading.addEventListener(\"click\", function (evt) \x7b\n",
    "      var body = evt.currentTarget.parentElement;\n",
    "      body.classList.toggle(\"collapsed\");\n",
    "    \x7d);\n",
    "  \x7d\n",
    "\x7d)();\n"].flatMap bytes

/-! ### Texts -/

/-- `escapeHtml`. -/
def escapeHtml (text : Bytes) : Bytes :=
  text.flatMap fun c =>
    if c = 38 then bytes "&amp;"
    else if c = 60 then bytes "&lt;"
    else if c = 62 then bytes "&gt;"
    else if c = 34 then bytes "&quot;"
    else [c]

/-- `section`. -/
def «section» (id title body : Bytes) : Bytes :=
  bytes "<section class=\"section\" id=\"" ++ id ++ bytes "\"><h2>" ++ escapeHtml title ++
    bytes "</h2>" ++ body ++ bytes "</section>"

/-- `kv`. -/
def kv (label value : Bytes) : Bytes :=
  bytes "<div class=\"kv\"><span class=\"label\">" ++ escapeHtml label ++
    bytes "</span><span class=\"value\">" ++ value ++ bytes "</span></div>"

/-- `absentSpan`. -/
def absentSpan (reason : Bytes) : Bytes :=
  bytes "<span class=\"absent\">absent (" ++ escapeHtml reason ++ bytes ")</span>"

/-- `rta::view::formatTrim`. -/
def formatTrim (trimDb : Binary64Datum) : Bytes := printFixed 1 trimDb ++ bytes " dB"

/-- `dbOrAbsent`. -/
def dbOrAbsent (value : Option Binary64Datum) : Bytes :=
  match value with
  | some value => escapeHtml (formatTrim value)
  | none => absentSpan (bytes "no data")

/-- `detectorLetter`. -/
def detectorLetter : TimeWeighting → Bytes
  | .fast => bytes "F"
  | .slow => bytes "S"
  | .impulse => bytes "I"

/-- `oneDecimal`. -/
def oneDecimal (value : Binary64Datum) : Bytes := printFixed 1 value

/-- `percentDisplay`. -/
def percentDisplay (percent : Binary64Datum) : Bytes := oneDecimal percent ++ bytes " %"

/-- `secondsDisplay`. -/
def secondsDisplay (seconds : Binary64Datum) : Bytes := oneDecimal seconds ++ bytes " s"

/-- `exchangeRateDisplay`. -/
def exchangeRateDisplay (q : Binary64Datum) : Bytes := printFixed 7 q

/-- `percentOrAbsent`. -/
def percentOrAbsent (value : Option Binary64Datum) : Bytes :=
  match value with
  | some value => escapeHtml (percentDisplay value)
  | none => absentSpan (bytes "no data")

/-- `stateLabel`. -/
def stateLabel : SplAlarmState → Bytes
  | .filling => bytes "Filling"
  | .clear => bytes "Clear"
  | .fired => bytes "Fired"

/-- `stateClass`. -/
def stateClass : SplAlarmState → Bytes
  | .filling => bytes "state-filling"
  | .clear => bytes "state-clear"
  | .fired => bytes "state-fired"

/-- `std::to_string` of a double. -/
def toStringDouble (x : Binary64Datum) : Bytes := printFixed 6 x

variable (math : DoubleMath)

/-- `rta::view::formatHz`. -/
def formatHz (hz : Binary64Datum) : Bytes := decimalInt (math.llround hz) ++ bytes " Hz"

/-- `percentText`. -/
def percentText (percent : Binary64Datum) : Bytes :=
  if math.eq percent (math.ofInt (math.toInt percent)) then decimalInt (math.toInt percent)
  else math.stream percent

/-- `intervalText`. -/
def intervalText (seconds : Binary64Datum) : Bytes :=
  let whole := math.toInt (math.add seconds half)
  if 0 < whole ∧ whole.tmod 3600 = 0 then decimalInt (whole.tdiv 3600) ++ bytes "h"
  else if 0 < whole ∧ whole.tmod 60 = 0 then decimalInt (whole.tdiv 60) ++ bytes "min"
  else decimalInt whole ++ bytes "s"

/-- `lnLabel`. -/
def lnLabel (w : WeightingType) (d : TimeWeighting) (percent windowSeconds : Binary64Datum) :
    Bytes :=
  bytes "L_" ++ w.toText ++ detectorLetter d ++ percentText math percent ++ bytes "," ++
    intervalText math windowSeconds

/-! ### Sections -/

/-- `renderIdentification`. -/
def renderIdentification (p : Payload) : Bytes :=
  «section» (bytes "identification") (bytes "Identification") <|
    kv (bytes "Venue") (escapeHtml p.venue) ++
    kv (bytes "Event") (escapeHtml p.event) ++
    kv (bytes "Operator") (escapeHtml p.operatorName) ++
    kv (bytes "Company") (escapeHtml p.company) ++
    kv (bytes "Engineer") (escapeHtml p.engineer) ++
    kv (bytes "Production company") (escapeHtml p.productionCompany) ++
    kv (bytes "Notes") (escapeHtml p.notes)

/-- `renderInstrument`. -/
def renderInstrument (p : Payload) : Bytes :=
  «section» (bytes "instrument") (bytes "Instrument") <|
    kv (bytes "Application") (escapeHtml p.appName ++ bytes " " ++ escapeHtml p.appVersion) ++
    kv (bytes "Build") (escapeHtml p.buildId) ++
    kv (bytes "Device") (escapeHtml p.device) ++
    kv (bytes "Channel") (escapeHtml p.channel) ++
    kv (bytes "Sample rate") (escapeHtml (formatHz math p.sampleRate)) ++
    bytes ("<p class=\"honesty\">Analytic frequency weighting is verified within 0.05 dB of " ++
      "IEC 61672-1:2013 Table 3 (not Table 2); the digital filter's approximation error " ++
      "is published beside it. This report makes no claim of conformance to any " ++
      "IEC 61672-1 accuracy class. The instrument's linear operating range, overload and " ++
      "under-range behaviour have not been verified against IEC 61672-1 clause 3.28's " ++
      "validity definition.</p>") ++
    bytes ("<p class=\"honesty\">Wave 4b (the served viewer) was cut before shipping " ++
      "(owner decision, 2026-09-25); record sec.12 constraint 2's rounding " ++
      "obligation is therefore recorded as untested for the viewer.</p>")

/-- `renderCalibration`. -/
def renderCalibration (p : Payload) : Bytes :=
  let c := p.calibration
  «section» (bytes "calibration") (bytes "Calibration") <|
    if ¬ c.performed then bytes "<p>calibration check not performed.</p>"
    else
      kv (bytes "Pre-check level") (escapeHtml (formatTrim c.start.measuredLevelDb)) ++
      kv (bytes "Pre-check time (ms, Unix epoch)") (decimal c.start.unixMs) ++
      kv (bytes "Post-check level") (escapeHtml (formatTrim c.finish.measuredLevelDb)) ++
      kv (bytes "Post-check time (ms, Unix epoch)") (decimal c.finish.unixMs) ++
      kv (bytes "Calibrator nominal level")
        (escapeHtml (formatTrim c.start.level.nominalDb) ++
          if c.start.level.operatorSupplied then bytes " (operator-supplied)" else []) ++
      kv (bytes "Compared against") (escapeHtml c.clause) ++
      (if ¬ p.calibrationOffsetApplied then
        bytes ("<p class=\"honesty\">This log's levels are NOT calibrated: the offset this " ++
          "calibration check measured was never applied to it (SPL logging was not yet " ++
          "running when the START check completed, or this log was started independently " ++
          "of that check).</p>")
      else []) ++
      if p.calibrationChannelRefusal ≠ .none then
        bytes "<p class=\"honesty\">Calibration refused: " ++
          (if p.calibrationChannelRefusal = .channelMismatch then
            bytes ("the start and end checks were measured on DIFFERENT channels " ++
              "(a role was reassigned between them) -- no drift verdict is " ++
              "meaningful between two different signal paths.")
          else
            bytes ("no measurement channel could be resolved for this calibration " ++
              "(an empty routing plan, or a calibrator-only rig) -- no drift " ++
              "verdict is written.")) ++
          bytes "</p>"
      else
        kv (bytes "Drift") (escapeHtml (formatTrim c.driftDb)) ++
          match c.verdict with
          | some verdict =>
            kv (bytes "Verdict") (if verdict = .pass then bytes "Pass" else bytes "Fail")
          | none => []

/-- `renderSettings`, a row of the metrics. -/
def metricRow (cfg : Config) (m : MetricSpec) : Bytes :=
  bytes "<tr><td>" ++ escapeHtml m.id ++ bytes "</td><td>" ++ m.weighting.toText ++
    bytes "</td><td>" ++ m.detector.toText ++ bytes "</td><td>" ++
    escapeHtml (intervalText math (math.mul (math.ofInt m.windowBlocks) cfg.blockSeconds)) ++
    bytes "</td></tr>"

/-- `renderSettings`, a row of the alarms. -/
def alarmRow (cfg : Config) (a : AlarmSpec) : Bytes :=
  bytes "<tr><td>" ++ escapeHtml a.metricId ++ bytes "</td><td>" ++
    escapeHtml (formatTrim a.limitDb) ++ bytes "</td><td>" ++
    escapeHtml (intervalText math (math.mul (math.ofInt a.windowBlocks) cfg.blockSeconds)) ++
    bytes "</td></tr>"

/-- `renderSettings`, a row of the alarms' states. -/
def alarmStateRow (a : AlarmResult) : Bytes :=
  bytes "<tr><td>" ++ escapeHtml a.metricId ++ bytes "</td><td class=\"" ++ stateClass a.state ++
    bytes "\">" ++ stateLabel a.state ++
    (if a.state = .filling then bytes " -- window not yet full, not compared" else []) ++
    bytes "</td><td>" ++ dbOrAbsent a.headroomDb ++ bytes "</td></tr>"

/-- `renderSettings`, a row of the dose presets. -/
def dosePresetRow (number : ℕ) (d : DoseSettings) : Bytes :=
  bytes "<tr><td>" ++ decimal number ++ bytes "</td><td>" ++
    escapeHtml (formatTrim d.criterionLevelDb) ++ bytes "</td><td>" ++
    escapeHtml (exchangeRateDisplay d.q) ++ bytes "</td><td>" ++
    escapeHtml (formatTrim d.thresholdDb) ++ bytes "</td><td>" ++
    escapeHtml (intervalText math d.criterionSeconds) ++ bytes "</td></tr>"

/-- `renderSettings`. -/
def renderSettings (p : Payload) : Bytes :=
  let cfg := p.config
  «section» (bytes "settings") (bytes "Settings") <|
    kv (bytes "Block interval") (escapeHtml (secondsDisplay cfg.blockSeconds)) ++
    kv (bytes "Reference offset") (escapeHtml (formatTrim cfg.referenceOffsetDb)) ++
    kv (bytes "Calibrated") (if cfg.calibrated then bytes "yes" else bytes "no") ++
    kv (bytes "Log span") (escapeHtml (intervalText math cfg.logSpanSeconds)) ++
    kv (bytes "Segment size (blocks)") (decimal cfg.segmentBlocks) ++
    (bytes ("<table><tr><th>Metric</th><th>Weighting</th><th>Detector</th>" ++
      "<th>Window</th></tr>") ++
      cfg.metrics.flatMap (metricRow math cfg) ++ bytes "</table>") ++
    (bytes "<table><tr><th>Alarm on</th><th>Limit</th><th>Window</th></tr>" ++
      cfg.alarms.flatMap (alarmRow math cfg) ++ bytes "</table>") ++
    (if p.alarms ≠ [] then
      bytes "<table><tr><th>Alarm status</th><th>State</th><th>Headroom</th></tr>" ++
        p.alarms.flatMap alarmStateRow ++ bytes "</table>"
    else []) ++
    (bytes ("<table><tr><th>Dose preset</th><th>L_c</th><th>q</th><th>Threshold</th>" ++
      "<th>T_c</th></tr>") ++
      (List.finRange 2).flatMap (fun i => dosePresetRow math (i.val + 1) cfg.dose[i]) ++
      bytes "</table>")

/-- `renderMetrics`, a row of two cells. -/
def resultRow (label : Bytes) (value : Option Binary64Datum) : Bytes :=
  bytes "<tr><td>" ++ label ++ bytes "</td><td>" ++ dbOrAbsent value ++ bytes "</td></tr>"

/-- `renderMetrics`, one metric. -/
def metricResult (m : MetricResult) : Bytes :=
  bytes "<h3>" ++ escapeHtml m.id ++ bytes " (" ++ m.weighting.toText ++ m.detector.toText ++
    bytes ")</h3><table>" ++
    resultRow (bytes "Leq (" ++ escapeHtml (intervalText math m.intervalSeconds) ++ bytes ")")
      m.leqDb ++
    resultRow (bytes "Lmax") m.lmaxDb ++
    resultRow (bytes "Lmin") m.lminDb ++
    resultRow (bytes "Lpeak (C, sampled)") m.lpeakDb ++
    resultRow (bytes "SEL") m.selDb ++
    (List.finRange 6).flatMap (fun i =>
      resultRow (escapeHtml (lnLabel math m.weighting m.detector m.lnPercents[i] m.intervalSeconds))
        m.lnDb[i]) ++
    bytes "</table>"

/-- `renderMetrics`. -/
def renderMetrics (p : Payload) : Bytes :=
  «section» (bytes "results") (bytes "Results per configured metric") <|
    p.metrics.flatMap (metricResult math)

/-- `renderDose`, one result. -/
def doseRow (d : DoseResult) : Bytes :=
  if d.label = [] then []
  else
    bytes "<tr><td>" ++ escapeHtml d.label ++ bytes "</td><td>" ++ percentOrAbsent d.percent ++
      bytes "</td><td>" ++ percentOrAbsent d.projectedPercent ++ bytes "</td><td>" ++
      escapeHtml (intervalText math d.elapsedSeconds) ++ bytes "</td><td>" ++
      escapeHtml (intervalText math d.settings.criterionSeconds) ++ bytes "</td><td>" ++
      dbOrAbsent d.twaDb ++ bytes "</td><td>" ++ dbOrAbsent d.exposureLevel8hDb ++
      bytes "</td></tr>"

/-- `renderDose`. -/
def renderDose (p : Payload) : Bytes :=
  «section» (bytes "dose") (bytes "Dose") <|
    bytes ("<table><tr><th>Preset</th><th>D%</th><th>Projected D%</th>" ++
      "<th>Elapsed</th><th>Criterion</th><th>TWA</th><th>L_EX,8h</th></tr>") ++
      p.dose.toList.flatMap (doseRow math) ++ bytes "</table>"

/-- `renderHistory`, the blocks that the scale is taken from. -/
def scaleBlocks (p : Payload) : List ℕ :=
  p.history.flatMap (fun series => series.map (·.blockIndex)) ++ p.markers.map (·.blockIndex) ++
    match p.validity.excludedBlockRange with
    | some range => [range.startBlockIndex, range.endBlockIndex]
    | none => []

/-- `renderHistory`, `first` and `last` after one more block. -/
def widenScale (scale : Option (ℕ × ℕ)) (block : ℕ) : Option (ℕ × ℕ) :=
  match scale with
  | none => some (block, block)
  | some (first, last) =>
    some (if block < first then block else first, if last < block then block else last)

/-- `renderHistory`, `first` and `last`. -/
def blockScale (p : Payload) : Option (ℕ × ℕ) := (scaleBlocks p).foldl widenScale none

/-- `renderHistory`, `xFor(idx)`. -/
def xFor (p : Payload) (idx : ℕ) : Binary64Datum :=
  match blockScale p with
  | none => math.ofInt 0
  | some (first, last) =>
    let span := if first < last then math.ofInt (last - first) else math.ofInt 1
    let delta := if first ≤ idx then math.ofInt (idx - first) else math.ofInt 0
    math.mul (math.div delta span) (math.ofInt 1000)

/-- `renderHistory`, one point of a trace. -/
def historyPoint (p : Payload) (pt : HistoryPoint) : Bytes :=
  let kH := math.ofInt 120
  let kFloor := math.ofInt (-20)
  let kCeil := math.ofInt 140
  let clamped := math.min (math.max pt.valueDb kFloor) kCeil
  let y := math.sub kH
    (math.mul (math.div (math.sub clamped kFloor) (math.sub kCeil kFloor)) kH)
  toStringDouble (xFor math p pt.blockIndex) ++ bytes "," ++ toStringDouble y ++ bytes " "

/-- `renderHistory`, one trace. -/
def historyTrace (p : Payload) (points : List HistoryPoint) : Bytes :=
  if points = [] then []
  else
    bytes "<polyline class=\"trace\" points=\"" ++ points.flatMap (historyPoint math p) ++
      bytes "\" />"

/-- `renderHistory`, the excluded region. -/
def excludedRegion (p : Payload) : Bytes :=
  match p.validity.excludedBlockRange with
  | some range =>
    let x1 := xFor math p range.startBlockIndex
    let x2 := xFor math p range.endBlockIndex
    bytes "<rect class=\"excluded-region\" x=\"" ++ toStringDouble (math.min x1 x2) ++
      bytes "\" y=\"0\" width=\"" ++ toStringDouble (math.sub (math.max x1 x2) (math.min x1 x2)) ++
      bytes "\" height=\"120\" />"
  | none => []

/-- `renderHistory`, the class of a marker's line. -/
def markerClass : SplMarkerKind → Bytes
  | .alarm => bytes "marker-alarm"
  | .overload => bytes "marker-overload"
  | .gap => bytes "marker-gap"
  | .note => []
  | .reset => []

/-- `renderHistory`, one marker. -/
def markerLine (p : Payload) (marker : Marker) : Bytes :=
  if markerClass marker.kind = [] then []
  else
    let x := toStringDouble (xFor math p marker.blockIndex)
    bytes "<line class=\"" ++ markerClass marker.kind ++ bytes "\" x1=\"" ++ x ++
      bytes "\" x2=\"" ++ x ++ bytes "\" y1=\"0\" y2=\"120\" />"

/-- `renderHistory`. -/
def renderHistory (p : Payload) : Bytes :=
  «section» (bytes "history") (bytes "Time history") <|
    bytes ("<svg class=\"strip\" viewBox=\"0 0 1000 120\" " ++
      "xmlns=\"http://www.w3.org/2000/svg\">") ++
      excludedRegion math p ++ p.history.flatMap (historyTrace math p) ++
      p.markers.flatMap (markerLine math p) ++ bytes "</svg>"

/-- `renderValidity`, one segment. -/
def segmentRow (seg : Bytes) : Bytes :=
  bytes "<tr><td>" ++ escapeHtml seg ++ bytes "</td></tr>"

/-- `renderValidity`. -/
def renderValidity (p : Payload) : Bytes :=
  let v := p.validity
  «section» (bytes "validity") (bytes "Validity") <|
    kv (bytes "Total blocks") (decimal v.totalBlocks) ++
    kv (bytes "Excluded from compliance windows") (decimal v.excludedBlocks) ++
    kv (bytes "Overload blocks") (decimal v.overloadBlocks) ++
    kv (bytes "Under-range blocks") (decimal v.underRangeBlocks) ++
    kv (bytes "Dropped blocks") (decimal v.droppedBlocks) ++
    kv (bytes "Gap blocks") (decimal v.gapBlocks) ++
    kv (bytes "Total samples lost to gaps") (decimal v.droppedSamplesTotal) ++
    kv (bytes "Refused metrics (configured beyond the cap)") (decimal v.refusedMetrics) ++
    kv (bytes "Bytes discarded (truncated final line)") (decimal v.bytesDiscarded) ++
    kv (bytes "Ln / dose / alarm source")
      (if v.lnDoseAlarmFromLiveSession then bytes "live session, read at export time"
      else bytes "unavailable -- session was not live when this report was built") ++
    kv (bytes "Excluded block range (calibration invalid)")
      (match v.excludedBlockRange with
      | some range => decimal range.startBlockIndex ++ bytes " .. " ++ decimal range.endBlockIndex
      | none => bytes "none") ++
    (bytes "<table><tr><th>Segment</th></tr>" ++ v.segmentPaths.flatMap segmentRow ++
      bytes "</table>") ++
    bytes ("<p class=\"honesty\">This report's content list is assembled from market " ++
      "practice; it is not claimed conformant with ISO 1996-2:2017 clause 13, " ++
      "whose body is paywalled and unread by this project.</p>") ++
    bytes ("<p class=\"honesty\">Alarm transition markers are not recorded in this log " ++
      "format.</p>")

/-- `renderIntegrity`. -/
def renderIntegrity (p : Payload) : Bytes :=
  let hash := sha256Hex p.logSegments.flatten
  «section» (bytes "integrity") (bytes "Integrity") <|
    kv (bytes "SHA-256 over the log segments")
      (bytes "<span class=\"hash\">" ++ hash ++ bytes "</span>") ++
    bytes ("<p class=\"honesty\">A tamper-evidence hash, not a signature: a signature " ++
      "needs a key and a story about where the key lives, which this project does " ++
      "not have.</p>")

/-! ### The document -/

/-- `documentShell`. -/
def documentShell (title bodyExtra sections : Bytes) : Bytes :=
  bytes "<!DOCTYPE html><html lang=\"en\"><head><meta charset=\"utf-8\">" ++
    bytes "<title>" ++ escapeHtml title ++ bytes "</title>" ++
    bytes "<style>" ++ kReportStyle ++ bytes "</style>" ++
    bytes "</head><body>" ++
    bytes "<h1>SPL measurement report</h1><p class=\"subtitle\">rtatool</p>" ++
    bodyExtra ++ sections ++
    bytes "<script>" ++ kReportScript ++ bytes "</script>" ++
    bytes "</body></html>"

/-- `renderReport`, the nine sections. -/
def reportSections (p : Payload) : Bytes :=
  renderIdentification p ++ renderInstrument math p ++ renderCalibration p ++
    renderSettings math p ++ renderMetrics math p ++ renderDose math p ++ renderHistory math p ++
    renderValidity p ++ renderIntegrity p

/-- `renderReport`. -/
def renderReport (p : Payload) : Bytes :=
  documentShell (if p.event = [] then bytes "SPL report" else p.event)
    (bytes "<script>window.__SPL_PAYLOAD__ = \x7b\"frozen\":true\x7d;</script>")
    (reportSections math p)

end SplReport

end RtaTool
