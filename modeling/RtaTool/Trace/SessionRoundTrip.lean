import RtaTool.Trace.SessionCodec

/-!
# Reading back a session

What `decodeIndex` makes of what `encodeIndex` wrote. It always succeeds, and the document it
returns is the one that was written, except that every text field has lost one carriage return at
its end, if it had one: the encoder does not escape that character, and the reader drops it from
every line as the remains of a line ending. So the round trip is exact if and only if no text field
ends in one.

A section is read by induction over its list of fields (`foldlM_writeLines`), each section's fields
then being one symbolic run of that section's function.

## Main definitions

* `SessionDocument.stripped` -- every text field less a carriage return at its end
* `SessionDocument.texts` -- the text fields
* `SessionDocument.SameStored` -- equal in every stored field
* `decimalNumbers` -- a concrete reading and writing of numbers

## Main results

* `decodeIndex_encodeIndex` -- the document that is read back
* `session_round_trip_iff` -- when it is the one that was written
-/

namespace RtaTool

/-! ### Text fields -/

/-- The text ends in a carriage return. -/
def EndsInCr (v : Bytes) : Prop := v.getLast? = some sessionFormat.carriageReturn

instance (v : Bytes) : Decidable (EndsInCr v) := inferInstanceAs (Decidable (_ = _))

/-- The text less a carriage return at its end. -/
abbrev stripCr (v : Bytes) : Bytes := sessionFormat.stripTrailingCr v

theorem stripCr_eq_self_iff {v : Bytes} : stripCr v = v ↔ ¬ EndsInCr v :=
  sessionFormat.stripTrailingCr_eq_self_iff

/-- A capture as it is read back. -/
def CaptureMeta.stripped (m : CaptureMeta) : CaptureMeta :=
  { m with
    id := stripCr m.id
    deviceName := stripCr m.deviceName
    channelRoles := stripCr m.channelRoles
    window := stripCr m.window
    averagingType := stripCr m.averagingType }

/-- An entry as it is read back. -/
def LibraryEntry.stripped (e : LibraryEntry) : LibraryEntry :=
  { e with traceId := stripCr e.traceId, name := stripCr e.name, group := stripCr e.group }

/-- A pane as it is read back. -/
def PaneSpec.stripped (p : PaneSpec) : PaneSpec := { p with view := stripCr p.view }

/-- A transfer function as it is read back. -/
def TransferFunctionSpec.stripped (tf : TransferFunctionSpec) : TransferFunctionSpec :=
  { tf with name := stripCr tf.name }

/-- The average as it is read back. -/
def AverageSpec.stripped (average : AverageSpec) : AverageSpec :=
  { average with members := average.members.map stripCr }

/-- The routing as it is read back, before it is bound. -/
def RoutingSpec.stripped (routing : RoutingSpec) : RoutingSpec :=
  { routing with deviceName := stripCr routing.deviceName, bound := false }

/-- A document as it is read back, before its routing is bound. -/
def SessionDocument.stripped (doc : SessionDocument) : SessionDocument where
  schemaVersion := doc.schemaVersion
  captures := doc.captures.map (·.stripped)
  entries := doc.entries.map (·.stripped)
  panes := doc.panes.map (·.stripped)
  transferFunctions := doc.transferFunctions.map (·.stripped)
  average := doc.average.map (·.stripped)
  routing := doc.routing.map (·.stripped)

/-- The text fields of a document. -/
def SessionDocument.texts (doc : SessionDocument) : List Bytes :=
  (doc.captures.flatMap fun m => [m.id, m.deviceName, m.channelRoles, m.window, m.averagingType]) ++
  (doc.entries.flatMap fun e => [e.traceId, e.name, e.group]) ++
  doc.panes.map (·.view) ++
  doc.transferFunctions.map (·.name) ++
  (doc.average.toList.flatMap (·.members)) ++
  doc.routing.toList.map (·.deviceName)

/-- What is stored of a routing: all but whether it is bound. -/
def RoutingSpec.stored (routing : RoutingSpec) : Bytes × ℤ :=
  (routing.deviceName, routing.inputChannelCount)

/-- Equal in every stored field. -/
structure SessionDocument.SameStored (a b : SessionDocument) : Prop where
  schemaVersion : a.schemaVersion = b.schemaVersion
  captures : a.captures = b.captures
  entries : a.entries = b.entries
  panes : a.panes = b.panes
  transferFunctions : a.transferFunctions = b.transferFunctions
  average : a.average = b.average
  routing : a.routing.map (·.stored) = b.routing.map (·.stored)

/-! ### Reading what was written -/

theorem stripCr_toChars {α : Type} (conv : CharConv α) (x : α) :
    stripCr (conv.toChars x) = conv.toChars x := by
  refine stripCr_eq_self_iff.mpr fun h => ?_
  exact (conv.toChars_plain x _ (List.mem_of_getLast? h)).2.2 rfl

variable {nums : NumberText}

/-- The rest of the loop from a state over a text. -/
def decodeFrom (nums : NumberText) (st : DecodeState) (text : Bytes) : Option DecodeState :=
  (sessionFormat.splitLines text).foldlM (decodeLine nums) st

/-- A written field reaches its section's function with its carriage return gone. -/
theorem decodeFrom_writeLine (st : DecodeState) {key : String}
    (hkey : sessionFormat.PlainKey (bytes key)) (v rest : Bytes) :
    decodeFrom nums st (writeLine key v ++ rest) =
      (setField nums st (bytes key) (stripCr v)).bind fun st' => decodeFrom nums st' rest := by
  have hassign := sessionFormat.assign_mem_keyLine (bytes key) (stripCr v)
  have hmarker : ∀ {l : Bytes}, sessionFormat.assign ∉ l →
      sessionFormat.keyLine (bytes key) (stripCr v) ≠ l := by
    rintro l hl rfl
    exact hl hassign
  have hline : decodeLine nums st (sessionFormat.keyLine (bytes key) (stripCr v)) =
      setField nums st (bytes key) (stripCr v) := by
    rw [decodeLine, if_neg (hmarker (by decide)), if_neg (hmarker (by decide)),
      if_neg (hmarker (by decide)), if_neg (hmarker (by decide)), if_neg (hmarker (by decide)),
      if_neg (hmarker (by decide)), if_neg (hmarker (by decide)),
      sessionFormat.splitLine_keyLine hkey.2]
    dsimp only
    rw [sessionFormat.unescape_escape]
  rw [decodeFrom, writeLine, sessionFormat.splitLines_writeLine hkey, List.foldlM_cons, hline]
  rfl

/-- A section marker reaches the loop as it was written. -/
theorem decodeFrom_markerLine (st : DecodeState) {marker : String}
    (hnewline : sessionFormat.newline ∉ bytes marker) (hcr : ¬ EndsInCr (bytes marker)) (rest : Bytes) :
    decodeFrom nums st (markerLine marker ++ rest) =
      (decodeLine nums st (bytes marker)).bind fun st' => decodeFrom nums st' rest := by
  rw [decodeFrom, markerLine, List.append_assoc, List.singleton_append,
    sessionFormat.splitLines_line hnewline,
    sessionFormat.stripTrailingCr_eq_self_iff.mpr hcr, List.foldlM_cons]
  rfl

/-- The lines of a list of fields. -/
def writeLines (fields : List (String × Bytes)) : Bytes :=
  fields.flatMap fun f => writeLine f.1 f.2

/-- Every key of a list of fields is plain. -/
def PlainKeys (fields : List (String × Bytes)) : Prop :=
  ∀ f ∈ fields, sessionFormat.PlainKey (bytes f.1)

theorem decodeFrom_writeLines (st : DecodeState) {fields : List (String × Bytes)}
    (hkeys : PlainKeys fields) (rest : Bytes) :
    decodeFrom nums st (writeLines fields ++ rest) =
      (fields.foldlM (fun st f => setField nums st (bytes f.1) (stripCr f.2)) st).bind
        fun st' => decodeFrom nums st' rest := by
  induction fields generalizing st with
  | nil => rfl
  | cons f fields ih =>
    obtain ⟨hf, hfields⟩ := List.forall_mem_cons.mp hkeys
    rw [writeLines, List.flatMap_cons, List.append_assoc, decodeFrom_writeLine st hf,
      List.foldlM_cons]
    cases setField nums st (bytes f.1) (stripCr f.2) with
    | none => rfl
    | some st' => exact ih st' hfields

/-! ### The sections -/

@[simp] theorem readFlag_flagText (flag : Bool) : readFlag (stripCr (flagText flag)) = some flag := by
  cases flag <;> decide

@[simp] theorem readUnit_unitText (unit : LevelUnit) :
    readUnit (stripCr (unitText unit)) = some unit := by
  cases unit <;> decide

@[simp] theorem readAveragingMode_text (mode : AveragingMode) :
    readAveragingMode (stripCr (averagingModeText mode)) = some mode := by
  cases mode <;> decide

@[simp] theorem readAverageMode_text (mode : AverageModeName) :
    readAverageMode (stripCr (averageModeText mode)) = some mode := by
  cases mode <;> decide

/-- The fields of a capture as they are written. -/
def captureFields (nums : NumberText) (m : CaptureMeta) : List (String × Bytes) :=
  [("id", m.id),
    ("capturedAtUnixMs", nums.int64.toChars m.capturedAtUnixMs),
    ("deviceName", m.deviceName),
    ("channelRoles", m.channelRoles),
    ("sampleRate", nums.double.toChars m.sampleRate),
    ("fftSize", nums.int.toChars m.fftSize),
    ("window", m.window),
    ("averagingType", m.averagingType),
    ("averagingDepth", nums.int.toChars m.averagingDepth),
    ("effectiveAverages", nums.double.toChars m.effectiveAverages),
    ("appliedDelaySamples", nums.int.toChars m.appliedDelaySamples),
    ("calibrationOffsetDb", nums.float.toChars m.calibrationOffsetDb),
    ("calibrationUnit", unitText m.calibrationUnit)]

theorem plainKeys_captureFields (m : CaptureMeta) : PlainKeys (captureFields nums m) := by
  simp only [PlainKeys, captureFields, List.forall_mem_cons]
  decide

theorem encodeCapture_eq (m : CaptureMeta) :
    encodeCapture nums m = markerLine "[capture]" ++ writeLines (captureFields nums m) := by
  simp [encodeCapture, captureFields, writeLines, writeNumeric]

theorem foldlM_captureFields (m : CaptureMeta) :
    (captureFields nums m).foldlM
      (fun m' f => setCaptureField nums m' (bytes f.1) (stripCr f.2)) {} = some m.stripped := by
  simp [captureFields, setCaptureField, stripCr_toChars, tryParse_toChars, CaptureMeta.stripped]

/-- The fields of an entry as they are written. -/
def entryFields (nums : NumberText) (e : LibraryEntry) : List (String × Bytes) :=
  [("traceId", e.traceId), ("name", e.name), ("group", e.group),
    ("shadeIndex", nums.int.toChars e.shadeIndex), ("visible", flagText e.visible)]

theorem plainKeys_entryFields (e : LibraryEntry) : PlainKeys (entryFields nums e) := by
  simp only [PlainKeys, entryFields, List.forall_mem_cons]
  decide

theorem encodeEntry_eq (e : LibraryEntry) :
    encodeEntry nums e = markerLine "[entry]" ++ writeLines (entryFields nums e) := by
  simp [encodeEntry, entryFields, writeLines, writeNumeric]

theorem foldlM_entryFields (e : LibraryEntry) :
    (entryFields nums e).foldlM
      (fun e' f => setEntryField nums e' (bytes f.1) (stripCr f.2)) {} = some e.stripped := by
  simp [entryFields, setEntryField, stripCr_toChars, tryParse_toChars, LibraryEntry.stripped]

/-- The fields of a pane as they are written. -/
def paneFields (nums : NumberText) (p : PaneSpec) : List (String × Bytes) :=
  [("view", p.view), ("weight", nums.float.toChars p.weight)]

theorem plainKeys_paneFields (p : PaneSpec) : PlainKeys (paneFields nums p) := by
  simp only [PlainKeys, paneFields, List.forall_mem_cons]
  decide

theorem encodePane_eq (p : PaneSpec) :
    encodePane nums p = markerLine "[pane]" ++ writeLines (paneFields nums p) := by
  simp [encodePane, paneFields, writeLines, writeNumeric]

theorem foldlM_paneFields (p : PaneSpec) :
    (paneFields nums p).foldlM
      (fun p' f => setPaneField nums p' (bytes f.1) (stripCr f.2)) {} = some p.stripped := by
  simp [paneFields, setPaneField, stripCr_toChars, tryParse_toChars, PaneSpec.stripped]

/-- The fields of a transfer function as they are written. -/
def tfFields (nums : NumberText) (tf : TransferFunctionSpec) : List (String × Bytes) :=
  [("name", tf.name),
    ("measurementChannel", nums.int.toChars tf.measurementChannel),
    ("referenceChannel", nums.int.toChars tf.referenceChannel),
    ("delaySamples", nums.int.toChars tf.delaySamples),
    ("trimDb", nums.double.toChars tf.trimDb),
    ("polarity", flagText tf.polarityInverted),
    ("memberOfAverage", flagText tf.memberOfAverage),
    ("averagingMode", averagingModeText tf.averagingMode),
    ("fifoDepth", nums.int.toChars tf.fifoDepth)]

theorem plainKeys_tfFields (tf : TransferFunctionSpec) : PlainKeys (tfFields nums tf) := by
  simp only [PlainKeys, tfFields, List.forall_mem_cons]
  decide

theorem encodeTf_eq (tf : TransferFunctionSpec) :
    encodeTf nums tf = markerLine "[tf]" ++ writeLines (tfFields nums tf) := by
  simp [encodeTf, tfFields, writeLines, writeNumeric]

theorem foldlM_tfFields (tf : TransferFunctionSpec) :
    (tfFields nums tf).foldlM
      (fun tf' f => setTfField nums tf' (bytes f.1) (stripCr f.2)) {} = some tf.stripped := by
  simp [tfFields, setTfField, stripCr_toChars, tryParse_toChars, TransferFunctionSpec.stripped]

/-- The fields of the average as they are written. -/
def averageFields (average : AverageSpec) : List (String × Bytes) :=
  ("mode", averageModeText average.mode) :: average.members.map fun member => ("member", member)

section

variable (average : AverageSpec)

theorem plainKeys_averageFields : PlainKeys (averageFields average) := by
  have hmode : sessionFormat.PlainKey (bytes "mode") := by decide
  have hmember : sessionFormat.PlainKey (bytes "member") := by decide
  refine List.forall_mem_cons.mpr ⟨hmode, ?_⟩
  intro f hf
  obtain ⟨member, -, rfl⟩ := List.mem_map.mp hf
  exact hmember

theorem foldlM_members (members : List Bytes) :
    (members.map fun member => ("member", member)).foldlM
        (fun a' (f : String × Bytes) => setAverageField a' (bytes f.1) (stripCr f.2)) average =
      some { average with members := average.members ++ members.map stripCr } := by
  induction members generalizing average with
  | nil => simp
  | cons member members ih =>
    rw [List.map_cons, List.foldlM_cons]
    have hset : setAverageField average (bytes "member") (stripCr member) =
        some { average with members := average.members ++ [stripCr member] } := by
      simp [setAverageField]
    rw [hset]
    refine (ih _).trans ?_
    simp

theorem foldlM_averageFields :
    (averageFields average).foldlM
      (fun a' f => setAverageField a' (bytes f.1) (stripCr f.2)) {} = some average.stripped := by
  have hmode : setAverageField {} (bytes "mode") (stripCr (averageModeText average.mode)) =
      some { mode := average.mode } := by
    simp [setAverageField]
  rw [averageFields, List.foldlM_cons, hmode]
  exact foldlM_members _ _

theorem encodeAverage_some :
    encodeAverage (some average) = markerLine "[average]" ++ writeLines (averageFields average) := by
  simp [encodeAverage, averageFields, writeLines, List.flatMap_map]

end

/-- The fields of the routing as they are written. -/
def routingFields (nums : NumberText) (routing : RoutingSpec) : List (String × Bytes) :=
  [("deviceName", routing.deviceName),
    ("inputChannelCount", nums.int.toChars routing.inputChannelCount)]

theorem plainKeys_routingFields (routing : RoutingSpec) :
    PlainKeys (routingFields nums routing) := by
  simp only [PlainKeys, routingFields, List.forall_mem_cons]
  decide

theorem encodeRouting_some (routing : RoutingSpec) :
    encodeRouting nums (some routing) =
      markerLine "[routing]" ++ writeLines (routingFields nums routing) := by
  simp [encodeRouting, routingFields, writeLines, writeNumeric]

theorem foldlM_routingFields (routing : RoutingSpec) :
    (routingFields nums routing).foldlM
      (fun r' f => setRoutingField nums r' (bytes f.1) (stripCr f.2)) {} =
        some routing.stripped := by
  simp [routingFields, setRoutingField, stripCr_toChars, tryParse_toChars, RoutingSpec.stripped]

/-! ### The document -/

/-- A section of fields is read by its own function alone. `put` is the state with the section's
record in it. -/
theorem decodeFrom_section {τ : Type} {part : τ → Bytes → Bytes → Option τ} (put : τ → DecodeState)
    {marker : String} {fields : List (String × Bytes)} {start final : τ} {st : DecodeState}
    (hnewline : sessionFormat.newline ∉ bytes marker) (hcr : ¬ EndsInCr (bytes marker))
    (hkeys : PlainKeys fields) (henter : decodeLine nums st (bytes marker) = some (put start))
    (hset : ∀ t key v, setField nums (put t) key v = (part t key v).map put)
    (hfold : fields.foldlM (fun t f => part t (bytes f.1) (stripCr f.2)) start = some final)
    (rest : Bytes) :
    decodeFrom nums st (markerLine marker ++ writeLines fields ++ rest) =
      decodeFrom nums (put final) rest := by
  rw [List.append_assoc, decodeFrom_markerLine st hnewline hcr, henter, Option.bind_some,
    decodeFrom_writeLines _ hkeys, foldlM_of_commutes put (fun t f => hset t _ _), hfold]
  rfl

/-- A list of sections is read one by one. `put` is the state with the list in it, in whatever
section the reader was. -/
theorem decodeFrom_list {τ : Type} {encode : τ → Bytes} {stripped : τ → τ}
    (put : List τ → Section → DecodeState) (here : Section)
    (hstep : ∀ l sect x rest, decodeFrom nums (put l sect) (encode x ++ rest) =
      decodeFrom nums (put (l ++ [stripped x]) here) rest)
    (xs l : List τ) (sect : Section) :
    ∃ sect', ∀ rest, decodeFrom nums (put l sect) (xs.flatMap encode ++ rest) =
      decodeFrom nums (put (l ++ xs.map stripped) sect') rest := by
  induction xs generalizing l sect with
  | nil => exact ⟨sect, fun rest => by simp⟩
  | cons x xs ih =>
    obtain ⟨sect', hrest⟩ := ih (l ++ [stripped x]) here
    refine ⟨sect', fun rest => ?_⟩
    rw [List.flatMap_cons, List.append_assoc, hstep, hrest, List.append_assoc]
    rfl

section

variable (nums)

section

variable (doc : SessionDocument)

theorem decodeFrom_captures (ms l : List CaptureMeta) (sect : Section) :
    ∃ sect', ∀ rest,
      decodeFrom nums ⟨{ doc with captures := l }, sect⟩ (ms.flatMap (encodeCapture nums) ++ rest) =
        decodeFrom nums ⟨{ doc with captures := l ++ ms.map (·.stripped) }, sect'⟩ rest := by
  refine decodeFrom_list (fun l sect => ⟨{ doc with captures := l }, sect⟩) .capture
    (fun l sect m rest => ?_) ms l sect
  rw [encodeCapture_eq]
  exact decodeFrom_section (fun m' => ⟨{ doc with captures := l ++ [m'] }, .capture⟩)
    (by decide) (by decide) (plainKeys_captureFields m) rfl
    (fun t key v => by simp [setField, updateLast_concat]; rfl) (foldlM_captureFields m) rest

theorem decodeFrom_entries (es l : List LibraryEntry) (sect : Section) :
    ∃ sect', ∀ rest,
      decodeFrom nums ⟨{ doc with entries := l }, sect⟩ (es.flatMap (encodeEntry nums) ++ rest) =
        decodeFrom nums ⟨{ doc with entries := l ++ es.map (·.stripped) }, sect'⟩ rest := by
  refine decodeFrom_list (fun l sect => ⟨{ doc with entries := l }, sect⟩) .entry
    (fun l sect e rest => ?_) es l sect
  rw [encodeEntry_eq]
  exact decodeFrom_section (fun e' => ⟨{ doc with entries := l ++ [e'] }, .entry⟩)
    (by decide) (by decide) (plainKeys_entryFields e) rfl
    (fun t key v => by simp [setField, updateLast_concat]; rfl) (foldlM_entryFields e) rest

theorem decodeFrom_panes (ps l : List PaneSpec) (sect : Section) :
    ∃ sect', ∀ rest,
      decodeFrom nums ⟨{ doc with panes := l }, sect⟩ (ps.flatMap (encodePane nums) ++ rest) =
        decodeFrom nums ⟨{ doc with panes := l ++ ps.map (·.stripped) }, sect'⟩ rest := by
  refine decodeFrom_list (fun l sect => ⟨{ doc with panes := l }, sect⟩) .pane
    (fun l sect p rest => ?_) ps l sect
  rw [encodePane_eq]
  exact decodeFrom_section (fun p' => ⟨{ doc with panes := l ++ [p'] }, .pane⟩)
    (by decide) (by decide) (plainKeys_paneFields p) rfl
    (fun t key v => by simp [setField, updateLast_concat]; rfl) (foldlM_paneFields p) rest

theorem decodeFrom_tfs (tfs l : List TransferFunctionSpec) (sect : Section) :
    ∃ sect', ∀ rest,
      decodeFrom nums ⟨{ doc with transferFunctions := l }, sect⟩
          (tfs.flatMap (encodeTf nums) ++ rest) =
        decodeFrom nums
          ⟨{ doc with transferFunctions := l ++ tfs.map (·.stripped) }, sect'⟩ rest := by
  refine decodeFrom_list (fun l sect => ⟨{ doc with transferFunctions := l }, sect⟩)
    .tf (fun l sect tf rest => ?_) tfs l sect
  rw [encodeTf_eq]
  exact decodeFrom_section (fun tf' => ⟨{ doc with transferFunctions := l ++ [tf'] }, .tf⟩)
    (by decide) (by decide) (plainKeys_tfFields tf) rfl
    (fun t key v => by simp [setField, updateLast_concat]; rfl) (foldlM_tfFields tf) rest

theorem decodeFrom_average (average : Option AverageSpec) (sect : Section) :
    ∃ sect', ∀ rest,
      decodeFrom nums ⟨{ doc with average := none }, sect⟩ (encodeAverage average ++ rest) =
        decodeFrom nums ⟨{ doc with average := average.map (·.stripped) }, sect'⟩ rest := by
  cases average with
  | none => exact ⟨sect, fun rest => rfl⟩
  | some average =>
    refine ⟨.average, fun rest => ?_⟩
    rw [encodeAverage_some]
    exact decodeFrom_section (fun a => ⟨{ doc with average := some a }, .average⟩)
      (by decide) (by decide) (plainKeys_averageFields average) rfl
      (fun t key v => rfl) (foldlM_averageFields average) rest

theorem decodeFrom_routing (routing : Option RoutingSpec) (sect : Section) :
    ∃ sect', ∀ rest,
      decodeFrom nums ⟨{ doc with routing := none }, sect⟩ (encodeRouting nums routing ++ rest) =
        decodeFrom nums ⟨{ doc with routing := routing.map (·.stripped) }, sect'⟩ rest := by
  cases routing with
  | none => exact ⟨sect, fun rest => rfl⟩
  | some routing =>
    refine ⟨.routing, fun rest => ?_⟩
    rw [encodeRouting_some]
    exact decodeFrom_section (fun r => ⟨{ doc with routing := some r }, .routing⟩)
      (by decide) (by decide) (plainKeys_routingFields routing) rfl
      (fun t key v => rfl) (foldlM_routingFields routing) rest

theorem decodeFrom_document :
    ∃ sect, decodeFrom nums ⟨{ schemaVersion := doc.schemaVersion }, .none⟩
        (doc.captures.flatMap (encodeCapture nums) ++
          (doc.entries.flatMap (encodeEntry nums) ++
          (doc.panes.flatMap (encodePane nums) ++
          (doc.transferFunctions.flatMap (encodeTf nums) ++
          (encodeAverage doc.average ++ encodeRouting nums doc.routing))))) =
      some ⟨doc.stripped, sect⟩ := by
  obtain ⟨s1, h1⟩ := decodeFrom_captures nums
    { schemaVersion := doc.schemaVersion } doc.captures [] .none
  obtain ⟨s2, h2⟩ := decodeFrom_entries nums
    { schemaVersion := doc.schemaVersion, captures := doc.stripped.captures } doc.entries [] s1
  obtain ⟨s3, h3⟩ := decodeFrom_panes nums
    { schemaVersion := doc.schemaVersion, captures := doc.stripped.captures,
      entries := doc.stripped.entries } doc.panes [] s2
  obtain ⟨s4, h4⟩ := decodeFrom_tfs nums
    { schemaVersion := doc.schemaVersion, captures := doc.stripped.captures,
      entries := doc.stripped.entries, panes := doc.stripped.panes } doc.transferFunctions [] s3
  obtain ⟨s5, h5⟩ := decodeFrom_average nums
    { schemaVersion := doc.schemaVersion, captures := doc.stripped.captures,
      entries := doc.stripped.entries, panes := doc.stripped.panes,
      transferFunctions := doc.stripped.transferFunctions } doc.average s4
  obtain ⟨s6, h6⟩ := decodeFrom_routing nums
    { doc.stripped with routing := none } doc.routing s5
  refine ⟨s6, ?_⟩
  refine (h1 _).trans ((h2 _).trans ((h3 _).trans ((h4 _).trans ((h5 _).trans ?_))))
  exact (congrArg _ (List.append_nil _).symm).trans (h6 [])

end

/-- **Headline.** What is read back of a document that was written: the document with one carriage
return gone from the end of every text field that had one. -/
theorem decodeIndex_encodeIndex {doc : SessionDocument} (hv : doc.schemaVersion ≤ kSchemaVersion)
    (out : SessionDocument) (device : Option CurrentDevice) :
    decodeIndex nums (encodeIndex nums doc) out device = (.ok, doc.stripped.bindTo device) := by
  have hkey : sessionFormat.PlainKey (bytes "schema") := by decide
  obtain ⟨sect, hrest⟩ := decodeFrom_document nums doc
  have hstrip : sessionFormat.stripTrailingCr (nums.int.toChars doc.schemaVersion) =
      nums.int.toChars doc.schemaVersion := stripCr_toChars _ _
  have hplain : sessionFormat.escape (nums.int.toChars doc.schemaVersion) =
      nums.int.toChars doc.schemaVersion := by
    refine sessionFormat.escape_eq_self fun c hc => ?_
    have hc := nums.int.toChars_plain _ c hc
    exact ⟨hc.1, hc.2.1⟩
  rw [decodeIndex, encodeIndex, writeNumeric, writeLine, sessionFormat.splitLines_writeLine hkey]
  dsimp only
  rw [sessionFormat.splitLine_keyLine hkey.2, hstrip, hplain]
  dsimp only
  rw [if_neg (not_not.mpr rfl), tryParse_toChars]
  dsimp only
  rw [if_neg (Int.not_lt.mpr hv)]
  rw [decodeFrom] at hrest
  rw [hrest]

end

/-! ### When the round trip is exact -/

theorem map_eq_self_iff {τ : Type} {f : τ → τ} {l : List τ} :
    l.map f = l ↔ ∀ x ∈ l, f x = x := by
  have h : l.map f = l.map id ↔ ∀ x ∈ l, f x = id x := List.map_inj_left
  rw [List.map_id] at h
  exact h

theorem CaptureMeta.stripped_eq_self_iff (m : CaptureMeta) :
    m.stripped = m ↔
      ∀ t ∈ [m.id, m.deviceName, m.channelRoles, m.window, m.averagingType], ¬ EndsInCr t := by
  cases m
  simp [stripped, stripCr_eq_self_iff]

theorem LibraryEntry.stripped_eq_self_iff (e : LibraryEntry) :
    e.stripped = e ↔ ∀ t ∈ [e.traceId, e.name, e.group], ¬ EndsInCr t := by
  cases e
  simp [stripped, stripCr_eq_self_iff]

theorem PaneSpec.stripped_eq_self_iff (p : PaneSpec) : p.stripped = p ↔ ¬ EndsInCr p.view := by
  cases p
  simp [stripped, stripCr_eq_self_iff]

theorem TransferFunctionSpec.stripped_eq_self_iff (tf : TransferFunctionSpec) :
    tf.stripped = tf ↔ ¬ EndsInCr tf.name := by
  cases tf
  simp [stripped, stripCr_eq_self_iff]

theorem AverageSpec.stripped_eq_self_iff (average : AverageSpec) :
    average.stripped = average ↔ ∀ t ∈ average.members, ¬ EndsInCr t := by
  cases average
  simp [stripped, map_eq_self_iff, stripCr_eq_self_iff]

theorem RoutingSpec.stored_stripped_iff (device : Option CurrentDevice) (routing : RoutingSpec) :
    (routing.stripped.bindTo device).stored = routing.stored ↔ ¬ EndsInCr routing.deviceName := by
  simp [stripped, bindTo, stored, stripCr_eq_self_iff]

theorem SessionDocument.sameStored_stripped_iff (doc : SessionDocument)
    (device : Option CurrentDevice) :
    (doc.stripped.bindTo device).SameStored doc ↔ ∀ t ∈ doc.texts, ¬ EndsInCr t := by
  have hcaptures : doc.stripped.captures = doc.captures ↔ ∀ t ∈ doc.captures.flatMap
      fun m => [m.id, m.deviceName, m.channelRoles, m.window, m.averagingType], ¬ EndsInCr t := by
    simp only [stripped, map_eq_self_iff, CaptureMeta.stripped_eq_self_iff, List.forall_mem_flatMap]
  have hentries : doc.stripped.entries = doc.entries ↔
      ∀ t ∈ doc.entries.flatMap fun e => [e.traceId, e.name, e.group], ¬ EndsInCr t := by
    simp only [stripped, map_eq_self_iff, LibraryEntry.stripped_eq_self_iff, List.forall_mem_flatMap]
  have hpanes : doc.stripped.panes = doc.panes ↔ ∀ t ∈ doc.panes.map (·.view), ¬ EndsInCr t := by
    simp only [stripped, map_eq_self_iff, PaneSpec.stripped_eq_self_iff, List.forall_mem_map]
  have htfs : doc.stripped.transferFunctions = doc.transferFunctions ↔
      ∀ t ∈ doc.transferFunctions.map (·.name), ¬ EndsInCr t := by
    simp only [stripped, map_eq_self_iff, TransferFunctionSpec.stripped_eq_self_iff,
      List.forall_mem_map]
  have haverage : doc.stripped.average = doc.average ↔
      ∀ t ∈ doc.average.toList.flatMap (·.members), ¬ EndsInCr t := by
    rw [stripped]
    cases doc.average with
    | none => simp
    | some average => simp [AverageSpec.stripped_eq_self_iff]
  have hrouting : (doc.stripped.bindTo device).routing.map (·.stored) =
      doc.routing.map (·.stored) ↔ ∀ t ∈ doc.routing.toList.map (·.deviceName), ¬ EndsInCr t := by
    rw [stripped, bindTo]
    cases doc.routing with
    | none => simp
    | some routing => simp [RoutingSpec.stored_stripped_iff]
  rw [texts]
  simp only [List.forall_mem_append, ← hcaptures, ← hentries, ← hpanes, ← htfs, ← haverage,
    ← hrouting]
  constructor
  · rintro ⟨-, h1, h2, h3, h4, h5, h6⟩
    exact ⟨⟨⟨⟨⟨h1, h2⟩, h3⟩, h4⟩, h5⟩, h6⟩
  · rintro ⟨⟨⟨⟨⟨h1, h2⟩, h3⟩, h4⟩, h5⟩, h6⟩
    exact ⟨rfl, h1, h2, h3, h4, h5, h6⟩

/-- **Headline.** A document of a schema this build reads is read back successfully and equal in
every stored field if and only if no text field of it ends in a carriage return. -/
theorem session_round_trip_iff (nums : NumberText) {doc : SessionDocument}
    (hv : doc.schemaVersion ≤ kSchemaVersion) (out : SessionDocument)
    (device : Option CurrentDevice) :
    ((decodeIndex nums (encodeIndex nums doc) out device).1 = .ok ∧
        (decodeIndex nums (encodeIndex nums doc) out device).2.SameStored doc) ↔
      ∀ t ∈ doc.texts, ¬ EndsInCr t := by
  rw [decodeIndex_encodeIndex nums hv, ← doc.sameStored_stripped_iff device]
  exact and_iff_right rfl

/-! ### Two sessions -/

/-- A reading and writing of numbers that is the source's on whole numbers. -/
def decimalNumbers : NumberText := ⟨decimalConv, decimalConv, fractionConv, fractionConv⟩

/-- A session with something in every section and awkward names: an assignment sign, an escape
character, a newline, a carriage return in the middle, and nothing at all. -/
def awkwardSession : SessionDocument where
  captures :=
    [{ id := bytes "a=b", deviceName := bytes "c\\d", channelRoles := bytes "e\nf",
       sampleRate := 48000, fftSize := 4096, window := bytes "g\rh" }]
  entries := [{ traceId := bytes "a=b", name := bytes "\\n", shadeIndex := -2, visible := false }]
  panes := [{}]
  transferFunctions := [{ name := bytes "=", measurementChannel := 1, averagingMode := .pinned }]
  average := some { mode := .power, members := [bytes "=", []] }
  routing := some { deviceName := bytes "c\\d", inputChannelCount := 2 }

/-- The hypothesis is met and the round trip exact for it. -/
theorem session_round_trip_awkwardSession :
    (decodeIndex decimalNumbers (encodeIndex decimalNumbers awkwardSession) {} none).1 = .ok ∧
      (decodeIndex decimalNumbers (encodeIndex decimalNumbers awkwardSession) {} none).2.SameStored
        awkwardSession :=
  (session_round_trip_iff decimalNumbers (by decide) {} none).mpr (by decide)

/-- A session whose one entry has a name ending in a carriage return. -/
def crSession : SessionDocument where
  entries := [{ traceId := bytes "t1", name := bytes "left\r" }]

/-- It is read back under another name, and nothing is reported. -/
theorem session_round_trip_loses_cr :
    (decodeIndex decimalNumbers (encodeIndex decimalNumbers crSession) {} none).1 = .ok ∧
      ¬ (decodeIndex decimalNumbers (encodeIndex decimalNumbers crSession) {} none).2.SameStored
        crSession := by
  rw [decodeIndex_encodeIndex decimalNumbers (by decide)]
  refine ⟨rfl, fun h => ?_⟩
  exact absurd h.entries (by decide)

end RtaTool
