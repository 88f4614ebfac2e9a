import RtaTool.Lib.Decimal
import RtaTool.Lib.EscapedLines
import RtaTool.Trace.Trace

/-!
# The session index

`SessionCodec.cpp` and `SessionDecode.cpp`: a session document as line-oriented text, and back.
The text is bytes; nothing is assumed about what the names in it hold.

Numbers are written and read by `std::to_chars` and `std::from_chars`. Those are a parameter here,
one `CharConv` for each C++ type the format writes, with what the codec relies on as its fields:
what was written is read back whole, and it is digits, signs and letters, so that none of the
format's own characters is in it.

`decodeIndex` writes its result through a reference and touches it only on success, so here it
takes the old document and returns the one the caller is left with. Every refusal of a line is
`Malformed`, which is `none` in the functions for one line and for one field.

## Main definitions

* `CharConv`, `NumberText` -- how numbers are written and read
* `SessionDocument` and its parts
* `encodeIndex`, `decodeLine`, `decodeIndex`
-/

namespace RtaTool

/-! ### Numbers as text -/

/-- `sessionFormat`: the characters `SessionCodecDetail.h` gives a meaning to. -/
def sessionFormat : LineFormat UInt8 where
  newline := 10
  esc := 92
  newlineName := 110
  carriageReturn := 13
  assign := 61
  esc_ne_newline := by decide
  name_ne_newline := by decide
  name_ne_esc := by decide
  assign_ne_newline := by decide
  cr_ne_newline := by decide
  cr_ne_esc := by decide
  cr_ne_name := by decide
  cr_ne_assign := by decide

/-- `std::to_chars` and `std::from_chars` for one type. Reading returns the value and what it left
unread. -/
structure CharConv (α : Type) where
  toChars : α → Bytes
  fromChars : Bytes → Option (α × Bytes)
  fromChars_toChars : ∀ x, fromChars (toChars x) = some (x, [])
  toChars_ne_nil : ∀ x, toChars x ≠ []
  toChars_plain : ∀ x, ∀ c ∈ toChars x,
    c ≠ sessionFormat.esc ∧ c ≠ sessionFormat.newline ∧ c ≠ sessionFormat.carriageReturn

/-- `tryParse(v, out)`: the whole of a text that is not empty. -/
def CharConv.tryParse {α : Type} (conv : CharConv α) (v : Bytes) : Option α :=
  if v = [] then none
  else
    match conv.fromChars v with
    | some (x, []) => some x
    | _ => none

theorem tryParse_toChars {α : Type} (conv : CharConv α) (x : α) :
    conv.tryParse (conv.toChars x) = some x := by
  rw [CharConv.tryParse, if_neg (conv.toChars_ne_nil x), conv.fromChars_toChars]

theorem isDigit_plain {c : UInt8} (hc : isDigit c = true) :
    c ≠ sessionFormat.esc ∧ c ≠ sessionFormat.newline ∧ c ≠ sessionFormat.carriageReturn := by
  refine ⟨?_, ?_, ?_⟩ <;> rintro rfl <;> exact absurd hc (by decide)

/-- Integers in decimal. -/
def decimalConv : CharConv ℤ where
  toChars := decimalInt
  fromChars := readDecimalInt
  fromChars_toChars x := by
    have h := readDecimalInt_decimalInt x [] (by simp)
    rwa [List.append_nil] at h
  toChars_ne_nil := decimalInt_ne_nil
  toChars_plain x c hc := by
    rcases mem_decimalInt hc with h | rfl
    · exact isDigit_plain h
    · decide

/-- Fractions; a whole number is written as an integer is. -/
def fractionConv : CharConv ℚ where
  toChars := fraction
  fromChars := readFraction
  fromChars_toChars := readFraction_fraction
  toChars_ne_nil := fraction_ne_nil
  toChars_plain q c hc := by
    rcases mem_fraction hc with h | rfl | rfl
    · exact isDigit_plain h
    · decide
    · decide

/-- The types the format writes. -/
structure NumberText where
  int : CharConv ℤ
  int64 : CharConv ℤ
  float : CharConv ℚ
  double : CharConv ℚ

/-! ### The document -/

/-- `kSchemaVersion`. -/
def kSchemaVersion : ℤ := 3

/-- `LibraryEntry`. -/
structure LibraryEntry where
  traceId : Bytes := []
  name : Bytes := []
  group : Bytes := []
  shadeIndex : ℤ := 0
  visible : Bool := true
  deriving DecidableEq

/-- `PaneSpec`. -/
structure PaneSpec where
  view : Bytes := bytes "rta"
  weight : ℚ := 1
  deriving DecidableEq

/-- `AveragingMode`. -/
inductive AveragingMode
  | global
  | pinned
  deriving DecidableEq, Repr

/-- `TransferFunctionSpec`. -/
structure TransferFunctionSpec where
  name : Bytes := []
  measurementChannel : ℤ := -1
  referenceChannel : ℤ := -1
  delaySamples : ℤ := 0
  trimDb : ℚ := 0
  polarityInverted : Bool := false
  memberOfAverage : Bool := false
  averagingMode : AveragingMode := .global
  fifoDepth : ℤ := 16
  deriving DecidableEq

/-- `AverageModeName`. -/
inductive AverageModeName
  | db
  | power
  deriving DecidableEq, Repr

/-- `AverageSpec`. -/
structure AverageSpec where
  mode : AverageModeName := .db
  members : List Bytes := []
  deriving DecidableEq

/-- `RoutingSpec`. `bound` is never stored. -/
structure RoutingSpec where
  deviceName : Bytes := []
  inputChannelCount : ℤ := 0
  bound : Bool := false
  deriving DecidableEq

/-- `SessionDocument`. -/
structure SessionDocument where
  schemaVersion : ℤ := kSchemaVersion
  captures : List CaptureMeta := []
  entries : List LibraryEntry := []
  panes : List PaneSpec := []
  transferFunctions : List TransferFunctionSpec := []
  average : Option AverageSpec := none
  routing : Option RoutingSpec := none
  deriving DecidableEq

/-- `DecodeStatus`. -/
inductive DecodeStatus
  | ok
  | malformed
  | newerSchema
  deriving DecidableEq, Repr

/-- `CurrentDevice`. -/
structure CurrentDevice where
  name : Bytes
  inputChannelCount : ℤ

/-! ### Encoding -/

/-- A section marker's line, ended. -/
def markerLine (marker : String) : Bytes := bytes marker ++ [sessionFormat.newline]

/-- `writeLine(out, key, value)`, as what it appends. -/
def writeLine (key : String) (value : Bytes) : Bytes := sessionFormat.writeLine (bytes key) value

/-- `writeNumeric(out, key, value)`. -/
def writeNumeric {α : Type} (conv : CharConv α) (key : String) (value : α) : Bytes :=
  writeLine key (conv.toChars value)

/-- A flag's text. -/
def flagText (flag : Bool) : Bytes := if flag then bytes "1" else bytes "0"

/-- A calibration unit's text. -/
def unitText (unit : LevelUnit) : Bytes :=
  if unit = .dbSpl then bytes "dbspl" else bytes "dbfs"

/-- An averaging mode's text. -/
def averagingModeText (mode : AveragingMode) : Bytes :=
  if mode = .pinned then bytes "pinned" else bytes "global"

/-- The average's mode as text. -/
def averageModeText (mode : AverageModeName) : Bytes :=
  if mode = .power then bytes "power" else bytes "db"

variable (nums : NumberText)

/-- One turn of `encodeIndex`'s loop over the captures. -/
def encodeCapture (m : CaptureMeta) : Bytes :=
  markerLine "[capture]" ++
    (writeLine "id" m.id ++
    writeNumeric nums.int64 "capturedAtUnixMs" m.capturedAtUnixMs ++
    writeLine "deviceName" m.deviceName ++
    writeLine "channelRoles" m.channelRoles ++
    writeNumeric nums.double "sampleRate" m.sampleRate ++
    writeNumeric nums.int "fftSize" m.fftSize ++
    writeLine "window" m.window ++
    writeLine "averagingType" m.averagingType ++
    writeNumeric nums.int "averagingDepth" m.averagingDepth ++
    writeNumeric nums.double "effectiveAverages" m.effectiveAverages ++
    writeNumeric nums.int "appliedDelaySamples" m.appliedDelaySamples ++
    writeNumeric nums.float "calibrationOffsetDb" m.calibrationOffsetDb ++
    writeLine "calibrationUnit" (unitText m.calibrationUnit))

/-- One turn of the loop over the entries. -/
def encodeEntry (e : LibraryEntry) : Bytes :=
  markerLine "[entry]" ++
    (writeLine "traceId" e.traceId ++
    writeLine "name" e.name ++
    writeLine "group" e.group ++
    writeNumeric nums.int "shadeIndex" e.shadeIndex ++
    writeLine "visible" (flagText e.visible))

/-- One turn of the loop over the panes. -/
def encodePane (p : PaneSpec) : Bytes :=
  markerLine "[pane]" ++
    (writeLine "view" p.view ++
    writeNumeric nums.float "weight" p.weight)

/-- One turn of the loop over the transfer functions. -/
def encodeTf (tf : TransferFunctionSpec) : Bytes :=
  markerLine "[tf]" ++
    (writeLine "name" tf.name ++
    writeNumeric nums.int "measurementChannel" tf.measurementChannel ++
    writeNumeric nums.int "referenceChannel" tf.referenceChannel ++
    writeNumeric nums.int "delaySamples" tf.delaySamples ++
    writeNumeric nums.double "trimDb" tf.trimDb ++
    writeLine "polarity" (flagText tf.polarityInverted) ++
    writeLine "memberOfAverage" (flagText tf.memberOfAverage) ++
    writeLine "averagingMode" (averagingModeText tf.averagingMode) ++
    writeNumeric nums.int "fifoDepth" tf.fifoDepth)

/-- The `[average]` section, if there is one. -/
def encodeAverage : Option AverageSpec → Bytes
  | none => []
  | some average =>
    markerLine "[average]" ++
      (writeLine "mode" (averageModeText average.mode) ++
      average.members.flatMap (writeLine "member"))

/-- The `[routing]` section, if there is one. -/
def encodeRouting : Option RoutingSpec → Bytes
  | none => []
  | some routing =>
    markerLine "[routing]" ++
      (writeLine "deviceName" routing.deviceName ++
      writeNumeric nums.int "inputChannelCount" routing.inputChannelCount)

/-- `encodeIndex(doc)`. -/
def encodeIndex (doc : SessionDocument) : Bytes :=
  writeNumeric nums.int "schema" doc.schemaVersion ++
    (doc.captures.flatMap (encodeCapture nums) ++
    (doc.entries.flatMap (encodeEntry nums) ++
    (doc.panes.flatMap (encodePane nums) ++
    (doc.transferFunctions.flatMap (encodeTf nums) ++
    (encodeAverage doc.average ++ encodeRouting nums doc.routing)))))

/-! ### Decoding -/

/-- The section a line is read in. -/
inductive Section
  | none
  | capture
  | entry
  | pane
  | tf
  | average
  | routing
  deriving DecidableEq, Repr

/-- The document so far and the section the reader is in. -/
structure DecodeState where
  doc : SessionDocument
  current : Section

/-- A flag's value. -/
def readFlag (v : Bytes) : Option Bool :=
  if v = bytes "1" then some true else if v = bytes "0" then some false else none

/-- A calibration unit's value. -/
def readUnit (v : Bytes) : Option LevelUnit :=
  if v = bytes "dbspl" then some .dbSpl else if v = bytes "dbfs" then some .dbFs else none

/-- An averaging mode's value. -/
def readAveragingMode (v : Bytes) : Option AveragingMode :=
  if v = bytes "global" then some .global else if v = bytes "pinned" then some .pinned else none

/-- The average's mode. -/
def readAverageMode (v : Bytes) : Option AverageModeName :=
  if v = bytes "db" then some .db else if v = bytes "power" then some .power else none

/-- A line of a `[capture]` section. -/
def setCaptureField (m : CaptureMeta) (key v : Bytes) : Option CaptureMeta :=
  if key = bytes "id" then some { m with id := v }
  else if key = bytes "capturedAtUnixMs" then
    (nums.int64.tryParse v).map fun x => { m with capturedAtUnixMs := x }
  else if key = bytes "deviceName" then some { m with deviceName := v }
  else if key = bytes "channelRoles" then some { m with channelRoles := v }
  else if key = bytes "sampleRate" then
    (nums.double.tryParse v).map fun x => { m with sampleRate := x }
  else if key = bytes "fftSize" then (nums.int.tryParse v).map fun x => { m with fftSize := x }
  else if key = bytes "window" then some { m with window := v }
  else if key = bytes "averagingType" then some { m with averagingType := v }
  else if key = bytes "averagingDepth" then
    (nums.int.tryParse v).map fun x => { m with averagingDepth := x }
  else if key = bytes "effectiveAverages" then
    (nums.double.tryParse v).map fun x => { m with effectiveAverages := x }
  else if key = bytes "appliedDelaySamples" then
    (nums.int.tryParse v).map fun x => { m with appliedDelaySamples := x }
  else if key = bytes "calibrationOffsetDb" then
    (nums.float.tryParse v).map fun x => { m with calibrationOffsetDb := x }
  else if key = bytes "calibrationUnit" then
    (readUnit v).map fun x => { m with calibrationUnit := x }
  else none

/-- A line of an `[entry]` section. -/
def setEntryField (e : LibraryEntry) (key v : Bytes) : Option LibraryEntry :=
  if key = bytes "traceId" then some { e with traceId := v }
  else if key = bytes "name" then some { e with name := v }
  else if key = bytes "group" then some { e with group := v }
  else if key = bytes "shadeIndex" then
    (nums.int.tryParse v).map fun x => { e with shadeIndex := x }
  else if key = bytes "visible" then (readFlag v).map fun x => { e with visible := x }
  else none

/-- A line of a `[pane]` section: the view's name is not looked at. -/
def setPaneField (p : PaneSpec) (key v : Bytes) : Option PaneSpec :=
  if key = bytes "view" then some { p with view := v }
  else if key = bytes "weight" then (nums.float.tryParse v).map fun x => { p with weight := x }
  else none

/-- A line of a `[tf]` section. -/
def setTfField (tf : TransferFunctionSpec) (key v : Bytes) : Option TransferFunctionSpec :=
  if key = bytes "name" then some { tf with name := v }
  else if key = bytes "measurementChannel" then
    (nums.int.tryParse v).map fun x => { tf with measurementChannel := x }
  else if key = bytes "referenceChannel" then
    (nums.int.tryParse v).map fun x => { tf with referenceChannel := x }
  else if key = bytes "delaySamples" then
    (nums.int.tryParse v).map fun x => { tf with delaySamples := x }
  else if key = bytes "trimDb" then (nums.double.tryParse v).map fun x => { tf with trimDb := x }
  else if key = bytes "polarity" then
    (readFlag v).map fun x => { tf with polarityInverted := x }
  else if key = bytes "memberOfAverage" then
    (readFlag v).map fun x => { tf with memberOfAverage := x }
  else if key = bytes "averagingMode" then
    (readAveragingMode v).map fun x => { tf with averagingMode := x }
  else if key = bytes "fifoDepth" then (nums.int.tryParse v).map fun x => { tf with fifoDepth := x }
  else none

/-- A line of an `[average]` section: `member` is the one key that may come again. -/
def setAverageField (average : AverageSpec) (key v : Bytes) : Option AverageSpec :=
  if key = bytes "mode" then (readAverageMode v).map fun x => { average with mode := x }
  else if key = bytes "member" then some { average with members := average.members ++ [v] }
  else none

/-- A line of a `[routing]` section. -/
def setRoutingField (routing : RoutingSpec) (key v : Bytes) : Option RoutingSpec :=
  if key = bytes "deviceName" then some { routing with deviceName := v }
  else if key = bytes "inputChannelCount" then
    (nums.int.tryParse v).map fun x => { routing with inputChannelCount := x }
  else none

/-- A `key=value` line, in the section the reader is in. -/
def setField (st : DecodeState) (key v : Bytes) : Option DecodeState :=
  match st.current with
  | .capture =>
    (updateLast (setCaptureField nums · key v) st.doc.captures).map fun l =>
      { st with doc := { st.doc with captures := l } }
  | .entry =>
    (updateLast (setEntryField nums · key v) st.doc.entries).map fun l =>
      { st with doc := { st.doc with entries := l } }
  | .pane =>
    (updateLast (setPaneField nums · key v) st.doc.panes).map fun l =>
      { st with doc := { st.doc with panes := l } }
  | .tf =>
    (updateLast (setTfField nums · key v) st.doc.transferFunctions).map fun l =>
      { st with doc := { st.doc with transferFunctions := l } }
  | .average =>
    (st.doc.average.bind (setAverageField · key v)).map fun average =>
      { st with doc := { st.doc with average := some average } }
  | .routing =>
    (st.doc.routing.bind (setRoutingField nums · key v)).map fun routing =>
      { st with doc := { st.doc with routing := some routing } }
  | .none => none

/-- One turn of `decodeIndex`'s loop. -/
def decodeLine (st : DecodeState) (line : Bytes) : Option DecodeState :=
  if line = [] then some st
  else if line = bytes "[capture]" then
    some ⟨{ st.doc with captures := st.doc.captures ++ [{}] }, .capture⟩
  else if line = bytes "[entry]" then
    some ⟨{ st.doc with entries := st.doc.entries ++ [{}] }, .entry⟩
  else if line = bytes "[pane]" then some ⟨{ st.doc with panes := st.doc.panes ++ [{}] }, .pane⟩
  else if line = bytes "[tf]" then
    some ⟨{ st.doc with transferFunctions := st.doc.transferFunctions ++ [{}] }, .tf⟩
  else if line = bytes "[average]" then some ⟨{ st.doc with average := some {} }, .average⟩
  else if line = bytes "[routing]" then some ⟨{ st.doc with routing := some {} }, .routing⟩
  else
    match sessionFormat.splitLine line with
    | none => none
    | some (key, value) => setField nums st key (sessionFormat.unescape value)

/-- Whether a stored routing is the current device's. -/
def RoutingSpec.bindTo (device : Option CurrentDevice) (routing : RoutingSpec) : RoutingSpec :=
  { routing with
    bound := device.any fun d =>
      d.name = routing.deviceName && d.inputChannelCount = routing.inputChannelCount }

/-- The routing of a document that has been read is bound to the current device or to none. -/
def SessionDocument.bindTo (device : Option CurrentDevice) (doc : SessionDocument) :
    SessionDocument :=
  { doc with routing := doc.routing.map (·.bindTo device) }

/-- `decodeIndex(text, out, currentDevice)`: the status, and what `out` holds afterwards. -/
def decodeIndex (text : Bytes) (out : SessionDocument) (device : Option CurrentDevice) :
    DecodeStatus × SessionDocument :=
  match sessionFormat.splitLines text with
  | [] => (.malformed, out)
  | first :: rest =>
    match sessionFormat.splitLine first with
    | none => (.malformed, out)
    | some (key, value) =>
      if key ≠ bytes "schema" then (.malformed, out)
      else
        match nums.int.tryParse value with
        | none => (.malformed, out)
        | some schemaVersion =>
          if kSchemaVersion < schemaVersion then (.newerSchema, out)
          else
            match rest.foldlM (decodeLine nums) ⟨{ schemaVersion := schemaVersion }, .none⟩ with
            | none => (.malformed, out)
            | some st => (.ok, st.doc.bindTo device)

theorem decodeIndex_refused (text : Bytes) (out : SessionDocument)
    (device : Option CurrentDevice) (h : (decodeIndex nums text out device).1 ≠ .ok) :
    (decodeIndex nums text out device).2 = out := by
  revert h
  rw [decodeIndex]
  split
  · exact fun _ => rfl
  · split
    · exact fun _ => rfl
    · split
      · exact fun _ => rfl
      · split
        · exact fun _ => rfl
        · split
          · exact fun _ => rfl
          · split
            · exact fun _ => rfl
            · exact fun h => absurd rfl h

end RtaTool
