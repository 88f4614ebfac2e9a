import RtaTool.Api.ApiSerialise

/-!
# The bodies are JSON

Every body of the interface is a text of a value that is written down here next to it, member by
member. So it is read as that value by any reader that follows the RFC, whichever blocks are there
and however long their arrays are.

## Main definitions

* `FloatText.Prints` -- what `std::to_chars` is relied on for
* `transferMembers`, `mtwMembers`, `averageMembers`, ... -- the values, member by member
* `IsBody`, `ServesBodies`

## Main results

* `encodes_escaped` -- what is written for a byte is read as the byte
* `jsonText_snapshot` and its siblings -- the bodies are texts of their values
* `servesBodies` -- all eight, for every snapshot and request
-/

namespace RtaTool

/-! ### Bytes and characters -/

theorem isUtf8_bytes (text : String) : IsUtf8 (bytes text) := by
  obtain ⟨chars, hchars⟩ := text.isValidUTF8
  refine ⟨chars, ?_⟩
  rw [bytes, String.toUTF8, hchars, List.utf8Encode]
  simp

/-- The bytes of a character are the one byte below 128, or bytes from 128 on. -/
theorem utf8EncodeChar_cases (c : Char) :
    (∃ b : UInt8, b < 128 ∧ String.utf8EncodeChar c = [b]) ∨
      ∀ b ∈ String.utf8EncodeChar c, 128 ≤ b := by
  have hbyte : ∀ n, 128 ≤ n → n < 256 → (128 : UInt8) ≤ UInt8.ofNat n := by
    intro n hle hlt
    rw [UInt8.le_iff_toNat_le, UInt8.toNat_ofNat', Nat.mod_eq_of_lt hlt]
    exact hle
  rw [String.utf8EncodeChar]
  split_ifs with h1 h2 h3
  · refine .inl ⟨_, ?_, rfl⟩
    rw [UInt8.lt_iff_toNat_lt, UInt8.toNat_ofNat', Nat.mod_eq_of_lt (by omega)]
    exact Nat.lt_succ_of_le h1
  · right
    intro b hb
    simp only [List.mem_cons, List.not_mem_nil, or_false] at hb
    rcases hb with rfl | rfl
    · exact hbyte _ (by omega) (by omega)
    · exact hbyte _ (by omega) (by omega)
  · right
    intro b hb
    simp only [List.mem_cons, List.not_mem_nil, or_false] at hb
    rcases hb with rfl | rfl | rfl
    · exact hbyte _ (by omega) (by omega)
    · exact hbyte _ (by omega) (by omega)
    · exact hbyte _ (by omega) (by omega)
  · right
    intro b hb
    simp only [List.mem_cons, List.not_mem_nil, or_false] at hb
    rcases hb with rfl | rfl | rfl | rfl
    · exact hbyte _ (by omega) (by omega)
    · exact hbyte _ (by omega) (by omega)
    · exact hbyte _ (by omega) (by omega)
    · exact hbyte _ (by omega) (by omega)

namespace Api

open ApiJson

variable {b : UInt8} {text : Bytes}

/-- The two digits of a control are read as the control. -/
theorem hexChar_kHex (hb : b < 32) :
    hexChar 48 48 (kHex.getD ((b >>> 4) &&& 0x0F).toNat 0) (kHex.getD (b &&& 0x0F).toNat 0) =
      some [b] := by
  have hall : ∀ n : Fin 32, hexChar 48 48
      (kHex.getD ((UInt8.ofNat n >>> 4) &&& 0x0F).toNat 0)
      (kHex.getD (UInt8.ofNat n &&& 0x0F).toNat 0) = some [UInt8.ofNat n] := by
    decide
  have hchar := hall ⟨b.toNat, UInt8.lt_iff_toNat_lt.mp hb⟩
  rw [UInt8.ofNat_toNat] at hchar
  exact hchar

/-- What is written for a byte is read as the byte. -/
theorem encodes_escaped (b : UInt8) : Encodes (escaped b) [b] := by
  rw [escaped]
  split_ifs with h1 h2 h3 h4 h5 h6 h7 h8
  · rw [h1]
    exact .short (by decide) rfl
  · rw [h2]
    exact .short (by decide) rfl
  · rw [h3]
    exact .short (by decide) rfl
  · rw [h4]
    exact .short (by decide) rfl
  · rw [h5]
    exact .short (by decide) rfl
  · rw [h6]
    exact .short (by decide) rfl
  · rw [h7]
    exact .short (by decide) rfl
  · exact .hex (hexChar_kHex h8)
  · exact .plain h8 h1 h2

theorem encodes_flatMap_escaped (text : Bytes) : Encodes (text.flatMap escaped) text := by
  have hall : Encodes (text.flatMap escaped) (text.flatMap fun b => [b]) :=
    .flatMap fun b _ => encodes_escaped b
  rwa [List.flatMap_singleton'] at hall

theorem escaped_ascii (hb : b < 128) : ∀ c ∈ escaped b, c < 128 := by
  by_cases hcontrol : b < 32
  · have hall : ((List.range 32).all fun n => (escaped (UInt8.ofNat n)).all fun c => c < 128) =
        true := by decide
    have hchar := List.all_eq_true.mp hall b.toNat
      (List.mem_range.mpr (UInt8.lt_iff_toNat_lt.mp hcontrol))
    rw [UInt8.ofNat_toNat] at hchar
    exact fun c hc => of_decide_eq_true (List.all_eq_true.mp hchar c hc)
  · have hne : ∀ c : UInt8, c < 32 → b ≠ c := by
      rintro c hc rfl
      exact hcontrol hc
    rw [escaped]
    split_ifs with h1 h2 h3 h4 h5 h6 h7
    · simp
    · simp
    · exact absurd h3 (hne 8 (by decide))
    · exact absurd h4 (hne 12 (by decide))
    · exact absurd h5 (hne 10 (by decide))
    · exact absurd h6 (hne 13 (by decide))
    · exact absurd h7 (hne 9 (by decide))
    · intro c hc
      rw [List.mem_singleton.mp hc]
      exact hb

theorem escaped_of_le (hb : 128 ≤ b) : escaped b = [b] := by
  have hne : ∀ c : UInt8, c < 128 → b ≠ c := by
    rintro c hc rfl
    exact absurd hb (UInt8.not_le.mpr hc)
  have hcontrol : ¬ b < 0x20 := by
    rw [UInt8.not_lt]
    exact UInt8.le_trans (by decide) hb
  rw [escaped, if_neg (hne 34 (by decide)), if_neg (hne 92 (by decide)), if_neg (hne 8 (by decide)),
    if_neg (hne 12 (by decide)), if_neg (hne 10 (by decide)), if_neg (hne 13 (by decide)),
    if_neg (hne 9 (by decide)), if_neg hcontrol]

theorem isUtf8_flatMap_escaped (h : IsUtf8 text) :
    IsUtf8 (text.flatMap escaped) := by
  obtain ⟨chars, rfl⟩ := h
  rw [List.flatMap_assoc]
  apply IsUtf8.flatMap
  intro c _
  rcases utf8EncodeChar_cases c with ⟨b, hb, hc⟩ | hc
  · rw [hc, List.flatMap_singleton]
    exact .of_ascii (escaped_ascii hb)
  · have hself : (String.utf8EncodeChar c).flatMap escaped = String.utf8EncodeChar c := by
      have hcongr : (String.utf8EncodeChar c).flatMap escaped =
          (String.utf8EncodeChar c).flatMap fun b => [b] := by
        apply List.flatMap_congr
        intro b hb
        exact escaped_of_le (hc b hb)
      rw [hcongr, List.flatMap_singleton']
    rw [hself]
    exact ⟨[c], (List.flatMap_singleton _ _).symm⟩

theorem jsonText_stringValue (h : IsUtf8 text) :
    JsonText (stringValue text) (.string text) :=
  .string (encodes_flatMap_escaped text) (isUtf8_flatMap_escaped h)

theorem readJson_stringValue (text : Bytes) :
    readJson (stringValue text) = some (.string text) :=
  readJson_of_reads ((encodes_flatMap_escaped text).reads (Nat.lt_succ_self _))

/-! ### The values -/

/-- What is relied on of `std::to_chars`: a finite number is written as `printf` writes it. -/
def FloatText.Prints {T : Type} (text : FloatText T) : Prop :=
  ∀ x, text.isFinite x = true → ∃ f : NumberForm, f.Valid ∧ text.toChars x = f.text

/-- The value of a floating point number: null, if it is not finite. -/
def numberValue {T : Type} (text : FloatText T) (x : T) : Json :=
  if text.isFinite x then .number (text.toChars x) else .null

def natValue (n : ℕ) : Json := .number (decimal n)

def intValue (i : ℤ) : Json := .number (decimalInt i)

/-- The value of an array of at most `limit` points. -/
def arrayValue {T : Type} (value : T → Json) (points : List T) (limit : ℕ) : Json :=
  .array ((points.take (emittedCount points.length limit)).map value)

/-- A member of an object. -/
abbrev Member : Type := Bytes × Json

section Values

variable {D F : Type} (double : FloatText D) (float : FloatText F)

def uniformAxisValue (snapshot : Snapshot D F) (pointCount : ℕ) : Json :=
  .object [(bytes "kind", .string (bytes "uniform")),
    (bytes "sampleRate", numberValue double snapshot.sampleRate),
    (bytes "fftSize", natValue snapshot.fftSize),
    (bytes "pointCount", natValue pointCount)]

/-- The six names of `available`. -/
def availableNames : List Bytes :=
  [bytes "transfer", bytes "mtw", bytes "bands", bytes "spectrum", bytes "average",
    bytes "positions"]

def statusMembers (snapshot : Snapshot D F) : List Member :=
  [(bytes "schemaVersion", natValue 1),
    (bytes "app", .string (bytes "RTA Tool")),
    (bytes "sequence", natValue snapshot.sequence),
    (bytes "sampleRate", numberValue double snapshot.sampleRate),
    (bytes "fftSize", natValue snapshot.fftSize),
    (bytes "fraction", intValue snapshot.fraction),
    (bytes "hasReference", .bool snapshot.hasReference),
    (bytes "framesAnalysed", natValue snapshot.framesAnalysed),
    (bytes "droppedSamples", natValue snapshot.droppedSamples),
    (bytes "available", .array (availableNames.map .string))]

def transferMembers (snapshot : Snapshot D F) (block : TransferBlock D F) (limit : ℕ) :
    List Member :=
  [(bytes "axis", uniformAxisValue double snapshot (emittedCount block.magnitudeDb.length limit)),
    (bytes "effectiveAverages", numberValue double block.effectiveAverages),
    (bytes "appliedDelaySamples", intValue block.appliedDelaySamples),
    (bytes "magnitudeDb", arrayValue (numberValue float) block.magnitudeDb limit),
    (bytes "phaseDeg", arrayValue (numberValue float) block.phaseDeg limit)] ++
  block.coherence.elim [] fun coherence =>
    [(bytes "coherence", arrayValue (numberValue float) coherence limit)]

def spectrumMembers (snapshot : Snapshot D F) (limit : ℕ) : List Member :=
  [(bytes "axis", uniformAxisValue double snapshot
      (emittedCount snapshot.spectrumDb.length limit)),
    (bytes "spectrumDb", arrayValue (numberValue float) snapshot.spectrumDb limit)]

def bandValue (band : BandReading F) : Json :=
  .object [(bytes "centreHz", numberValue float band.centreHz),
    (bytes "lowerHz", numberValue float band.lowerHz),
    (bytes "upperHz", numberValue float band.upperHz),
    (bytes "levelDb", numberValue float band.levelDb),
    (bytes "underResolved", .bool band.underResolved)]

def bandsValue (snapshot : Snapshot D F) : Json := .array (snapshot.bands.map (bandValue float))

def mtwBandValue (band : MtwBandDescriptor D F) : Json :=
  .object [(bytes "firstIndex", natValue band.firstIndex),
    (bytes "pointCount", natValue band.pointCount),
    (bytes "fftSize", natValue band.fftSize),
    (bytes "windowSeconds", numberValue float band.windowSeconds),
    (bytes "integrationSeconds", numberValue float band.integrationSeconds),
    (bytes "effectiveAverages", numberValue double band.effectiveAverages),
    (bytes "seamHz", numberValue float band.seamHz),
    (bytes "coherenceAvailable", .bool band.coherenceAvailable)]

def explicitAxisValue (pointCount : ℕ) : Json :=
  .object [(bytes "kind", .string (bytes "explicit")), (bytes "pointCount", natValue pointCount)]

def mtwMembers (block : MtwBlock D F) (limit : ℕ) : List Member :=
  [(bytes "axis", explicitAxisValue (emittedCount block.magnitudeDb.length limit)),
    (bytes "frequencyHz", arrayValue (numberValue double) block.frequencyHz limit),
    (bytes "magnitudeDb", arrayValue (numberValue float) block.magnitudeDb limit),
    (bytes "phaseDeg", arrayValue (numberValue float) block.phaseDeg limit),
    (bytes "coherence", arrayValue (numberValue float) block.coherence limit),
    (bytes "appliedDelaySamples", intValue block.appliedDelaySamples),
    (bytes "bands", .array (block.bands.map (mtwBandValue double float)))]

def averageMembers (block : AverageBlock F) (limit : ℕ) : List Member :=
  [(bytes "pointCount", natValue (emittedCount block.magnitudeDb.length limit)),
    (bytes "magnitudeDb", arrayValue (numberValue float) block.magnitudeDb limit),
    (bytes "phaseDeg", arrayValue (numberValue float) block.phaseDeg limit),
    (bytes "phaseAgreement", arrayValue (numberValue float) block.phaseAgreement limit),
    (bytes "weightedCoherence", arrayValue (numberValue float) block.weightedCoherence limit),
    (bytes "contributors", arrayValue (fun c => natValue c.toNat) block.contributors limit),
    (bytes "absence", arrayValue (fun a => .string (absenceName a)) block.absence limit)]

def positionValue (position : PositionSummary D F) : Json :=
  .object [(bytes "tfIndex", intValue position.tfIndex),
    (bytes "name", .string position.name),
    (bytes "levelDb", numberValue float position.levelDb),
    (bytes "weightedCoherence", numberValue float position.weightedCoherence),
    (bytes "effectiveAverages", numberValue double position.effectiveAverages),
    (bytes "gatePassed", .bool position.gatePassed),
    (bytes "overloaded", .bool position.overloaded),
    (bytes "membership", .string (membershipName position.membership))]

def positionsValue (snapshot : Snapshot D F) : Json :=
  .array (snapshot.positions.map (positionValue double float))

/-- The members every body but `/status` and `/snapshot` begins with. -/
def headMembers (snapshot : Snapshot D F) : List Member :=
  [(bytes "schemaVersion", natValue 1), (bytes "sequence", natValue snapshot.sequence)]

def statusValue (snapshot : Snapshot D F) : Json := .object (statusMembers double snapshot)

def transferValue (snapshot : Snapshot D F) (limit : ℕ) : Json :=
  .object (headMembers snapshot ++
    snapshot.transfer.elim [] fun block => transferMembers double float snapshot block limit)

def spectrumValue (snapshot : Snapshot D F) (limit : ℕ) : Json :=
  .object (headMembers snapshot ++ spectrumMembers double float snapshot limit)

def bandsBodyValue (snapshot : Snapshot D F) : Json :=
  .object (headMembers snapshot ++
    [(bytes "fraction", intValue snapshot.fraction), (bytes "bands", bandsValue float snapshot)])

def mtwValue (snapshot : Snapshot D F) (limit : ℕ) : Json :=
  .object (headMembers snapshot ++
    snapshot.mtw.elim [] fun block => mtwMembers double float block limit)

def averageValue (snapshot : Snapshot D F) (limit : ℕ) : Json :=
  .object (headMembers snapshot ++
    snapshot.average.elim [] fun block => averageMembers float block limit)

def positionsBodyValue (snapshot : Snapshot D F) : Json :=
  .object (headMembers snapshot ++ [(bytes "positions", positionsValue double float snapshot)])

/-- The members of `/snapshot` that are there only with their blocks. -/
def blockMembers (snapshot : Snapshot D F) (limit : ℕ) : List Member :=
  (snapshot.transfer.elim [] fun block =>
    [(bytes "transfer", .object (transferMembers double float snapshot block limit))]) ++
  (snapshot.mtw.elim [] fun block =>
    [(bytes "mtw", .object (mtwMembers double float block limit))]) ++
  (snapshot.average.elim [] fun block =>
    [(bytes "average", .object (averageMembers float block limit))]) ++
  (if snapshot.positions.isEmpty then []
    else [(bytes "positions", positionsValue double float snapshot)])

def snapshotValue (snapshot : Snapshot D F) (limit : ℕ) : Json :=
  .object (statusMembers double snapshot ++
    [(bytes "bands", bandsValue float snapshot),
      (bytes "spectrum", .object (spectrumMembers double float snapshot limit))] ++
    blockMembers double float snapshot limit)

end Values

/-! ### Texts of the parts -/

section Texts

variable {D F : Type} {double : FloatText D} {float : FloatText F}

theorem jsonText_number {T : Type} {text : FloatText T} (h : text.Prints) (x : T) :
    JsonText (number text x) (numberValue text x) := by
  rw [number, numberValue]
  cases hx : text.isFinite x with
  | true =>
    obtain ⟨f, hf, htext⟩ := h x hx
    simp only [Bool.not_true, Bool.false_eq_true, if_false, if_true]
    rw [htext]
    exact .number hf
  | false => exact .null

theorem jsonText_nat (n : ℕ) : JsonText (numberNat n) (natValue n) := .natural n

theorem jsonText_int (i : ℤ) : JsonText (numberInt i) (intValue i) := .integer i

theorem jsonText_flag (b : Bool) : JsonText (flag b) (.bool b) := .bool b

theorem jsonText_array {T : Type} {write : T → Bytes} {value : T → Json}
    (h : ∀ x, JsonText (write x) (value x)) (points : List T) (limit : ℕ) :
    JsonText (array write points limit) (arrayValue value points limit) :=
  .array fun x _ => h x

theorem fields_cons (name : String) {t s : Bytes} {v : Json} {ms : List Member}
    (h : JsonText t v) (hrest : FieldsText s ms) :
    FieldsText (key (bytes name) ++ (t ++ (bytes "," ++ s))) ((bytes name, v) :: ms) := by
  have hmember := MemberText.of_value (encodes_flatMap_escaped (bytes name))
    (isUtf8_flatMap_escaped (isUtf8_bytes name)) h
  have hfields := (FieldsText.single hmember).append hrest
  have hcomma : bytes "," = [44] := rfl
  rw [key, stringValue, hcomma]
  simpa using hfields

theorem fields_last (name : String) {t : Bytes} {v : Json} (h : JsonText t v) :
    FieldsText (key (bytes name) ++ t) [(bytes name, v)] := by
  have hmember := MemberText.of_value (encodes_flatMap_escaped (bytes name))
    (isUtf8_flatMap_escaped (isUtf8_bytes name)) h
  rw [key, stringValue]
  simpa using FieldsText.single hmember

variable {ms ns : List Member} {s t : Bytes}

/-- Members and, after a comma, more of them. -/
theorem fields_append (hs : FieldsText s ms)
    (ht : FieldsText t ns) : FieldsText (s ++ (bytes "," ++ t)) (ms ++ ns) :=
  hs.append ht

/-- More members after a comma, or nothing. -/
def TrailingText (s : Bytes) (ms : List Member) : Prop :=
  (s = [] ∧ ms = []) ∨ ∃ t, s = bytes "," ++ t ∧ FieldsText t ms

theorem fields_trailing (hs : FieldsText s ms)
    (ht : TrailingText t ns) : FieldsText (s ++ t) (ms ++ ns) := by
  rcases ht with ⟨rfl, rfl⟩ | ⟨t, rfl, ht⟩
  · rw [List.append_nil, List.append_nil]
    exact hs
  · exact fields_append hs ht

theorem trailing_elim {T : Type} {o : Option T} {text : T → Bytes} {ms : T → List Member}
    (h : ∀ block, FieldsText (text block) (ms block)) :
    TrailingText (o.elim [] fun block => bytes "," ++ text block) (o.elim [] ms) := by
  cases o with
  | none => exact .inl ⟨rfl, rfl⟩
  | some block => exact .inr ⟨text block, rfl, h block⟩

theorem fields_object {s : Bytes} {ms : List Member} (h : FieldsText s ms)
    (hkeys : (ms.map Prod.fst).Nodup) : JsonText (openBrace ++ (s ++ closeBrace)) (.object ms) :=
  h.object hkeys

theorem jsonText_uniformAxis (hd : double.Prints) (snapshot : Snapshot D F) (count : ℕ) :
    JsonText (uniformAxis double snapshot count) (uniformAxisValue double snapshot count) := by
  have hfields := fields_cons "kind" (jsonText_stringValue (isUtf8_bytes "uniform"))
    (fields_cons "sampleRate" (jsonText_number hd snapshot.sampleRate)
    (fields_cons "fftSize" (jsonText_nat snapshot.fftSize)
    (fields_last "pointCount" (jsonText_nat count))))
  have hobject := fields_object hfields (by simp)
  rw [uniformAxis, uniformAxisValue]
  simpa only [List.append_assoc] using hobject

theorem jsonText_brackets {T : Type} {write : T → Bytes} {value : T → Json} (xs : List T)
    (h : ∀ x ∈ xs, JsonText (write x) (value x)) :
    JsonText (bytes "[" ++ (separated (xs.map write) ++ bytes "]")) (.array (xs.map value)) :=
  .array h

theorem one_comma : bytes "1," = numberNat 1 ++ bytes "," := by
  simp only [numberNat, decimal]
  rfl

theorem jsonText_available :
    JsonText (bytes "[\"transfer\",\"mtw\",\"bands\",\"spectrum\",\"average\",\"positions\"]")
      (.array (availableNames.map .string)) := by
  have htext : bytes "[\"transfer\",\"mtw\",\"bands\",\"spectrum\",\"average\",\"positions\"]" =
      bytes "[" ++ (separated (availableNames.map stringValue) ++ bytes "]") := rfl
  rw [htext]
  apply jsonText_brackets availableNames
  intro name hname
  apply jsonText_stringValue
  simp only [availableNames, List.mem_cons, List.not_mem_nil, or_false] at hname
  rcases hname with rfl | rfl | rfl | rfl | rfl | rfl
  all_goals exact isUtf8_bytes _

theorem fields_status (hd : double.Prints) (snapshot : Snapshot D F) (settings : ApiSettings) :
    FieldsText (statusFields double snapshot settings) (statusMembers double snapshot) := by
  have hfields := fields_cons "schemaVersion" (jsonText_nat 1)
    (fields_cons "app" (jsonText_stringValue (isUtf8_bytes "RTA Tool"))
    (fields_cons "sequence" (jsonText_nat snapshot.sequence)
    (fields_cons "sampleRate" (jsonText_number hd snapshot.sampleRate)
    (fields_cons "fftSize" (jsonText_nat snapshot.fftSize)
    (fields_cons "fraction" (jsonText_int snapshot.fraction)
    (fields_cons "hasReference" (jsonText_flag snapshot.hasReference)
    (fields_cons "framesAnalysed" (jsonText_nat snapshot.framesAnalysed)
    (fields_cons "droppedSamples" (jsonText_nat snapshot.droppedSamples)
    (fields_last "available" jsonText_available)))))))))
  rw [statusFields, statusMembers, one_comma]
  simpa only [List.append_assoc] using hfields

theorem fields_transfer (hd : double.Prints) (hf : float.Prints) (snapshot : Snapshot D F)
    (block : TransferBlock D F) (request : Request) :
    FieldsText (transferFields double float snapshot block request)
      (transferMembers double float snapshot block (limitOf request)) := by
  have harray := jsonText_array (jsonText_number hf)
  have haxis := jsonText_uniformAxis hd snapshot
    (emittedCount block.magnitudeDb.length (limitOf request))
  have hfields := fields_cons "axis" haxis
    (fields_cons "effectiveAverages" (jsonText_number hd block.effectiveAverages)
    (fields_cons "appliedDelaySamples" (jsonText_int block.appliedDelaySamples)
    (fields_cons "magnitudeDb" (harray block.magnitudeDb (limitOf request))
    (fields_last "phaseDeg" (harray block.phaseDeg (limitOf request))))))
  have hcoherence := trailing_elim (o := block.coherence)
    fun coherence => fields_last "coherence" (harray coherence (limitOf request))
  rw [transferFields, transferMembers]
  simpa only [List.append_assoc] using fields_trailing hfields hcoherence

theorem jsonText_bandObject (hf : float.Prints) (band : BandReading F) :
    JsonText (bandObject float band) (bandValue float band) := by
  have hfields := fields_cons "centreHz" (jsonText_number hf band.centreHz)
    (fields_cons "lowerHz" (jsonText_number hf band.lowerHz)
    (fields_cons "upperHz" (jsonText_number hf band.upperHz)
    (fields_cons "levelDb" (jsonText_number hf band.levelDb)
    (fields_last "underResolved" (jsonText_flag band.underResolved)))))
  have hobject := fields_object hfields (by simp)
  rw [bandObject, bandValue]
  simpa only [List.append_assoc] using hobject

theorem jsonText_bandsArray (hf : float.Prints) (snapshot : Snapshot D F) :
    JsonText (bandsArray float snapshot) (bandsValue float snapshot) := by
  rw [bandsArray, List.append_assoc]
  exact jsonText_brackets snapshot.bands fun band _ => jsonText_bandObject hf band

theorem jsonText_mtwBandObject (hd : double.Prints) (hf : float.Prints)
    (band : MtwBandDescriptor D F) :
    JsonText (mtwBandObject double float band) (mtwBandValue double float band) := by
  have hfields := fields_cons "firstIndex" (jsonText_nat band.firstIndex)
    (fields_cons "pointCount" (jsonText_nat band.pointCount)
    (fields_cons "fftSize" (jsonText_nat band.fftSize)
    (fields_cons "windowSeconds" (jsonText_number hf band.windowSeconds)
    (fields_cons "integrationSeconds" (jsonText_number hf band.integrationSeconds)
    (fields_cons "effectiveAverages" (jsonText_number hd band.effectiveAverages)
    (fields_cons "seamHz" (jsonText_number hf band.seamHz)
    (fields_last "coherenceAvailable" (jsonText_flag band.coherenceAvailable))))))))
  have hobject := fields_object hfields (by simp)
  rw [mtwBandObject, mtwBandValue]
  simpa only [List.append_assoc] using hobject

theorem fields_mtw (hd : double.Prints) (hf : float.Prints) (block : MtwBlock D F)
    (request : Request) :
    FieldsText (mtwFields double float block request)
      (mtwMembers double float block (limitOf request)) := by
  have harray := jsonText_array (jsonText_number hf)
  have hcount := jsonText_nat (emittedCount block.magnitudeDb.length (limitOf request))
  have haxis := fields_object (fields_cons "kind" (jsonText_stringValue (isUtf8_bytes "explicit"))
    (fields_last "pointCount" hcount)) (by simp)
  have hbands := jsonText_brackets block.bands fun band _ => jsonText_mtwBandObject hd hf band
  have hfields := fields_cons "axis" haxis
    (fields_cons "frequencyHz" (jsonText_array (jsonText_number hd) block.frequencyHz
      (limitOf request))
    (fields_cons "magnitudeDb" (harray block.magnitudeDb (limitOf request))
    (fields_cons "phaseDeg" (harray block.phaseDeg (limitOf request))
    (fields_cons "coherence" (harray block.coherence (limitOf request))
    (fields_cons "appliedDelaySamples" (jsonText_int block.appliedDelaySamples)
    (fields_last "bands" hbands))))))
  rw [mtwFields, mtwMembers, explicitAxisValue]
  simpa only [List.append_assoc] using hfields

theorem jsonText_absenceName (absence : SpatialAbsence) :
    JsonText (stringValue (absenceName absence)) (.string (absenceName absence)) := by
  cases absence with
  | present => exact jsonText_stringValue (isUtf8_bytes _)
  | noContributor => exact jsonText_stringValue (isUtf8_bytes _)
  | noWeight => exact jsonText_stringValue (isUtf8_bytes _)

theorem fields_average (hf : float.Prints) (block : AverageBlock F) (request : Request) :
    FieldsText (averageFields float block request)
      (averageMembers float block (limitOf request)) := by
  have harray := jsonText_array (jsonText_number hf)
  have hcount := jsonText_nat (emittedCount block.magnitudeDb.length (limitOf request))
  have habsence : JsonText _ (arrayValue _ block.absence (limitOf request)) := jsonText_brackets
    (block.absence.take (emittedCount block.absence.length (limitOf request)))
    fun absence _ => jsonText_absenceName absence
  have hfields := fields_cons "pointCount" hcount
    (fields_cons "magnitudeDb" (harray block.magnitudeDb (limitOf request))
    (fields_cons "phaseDeg" (harray block.phaseDeg (limitOf request))
    (fields_cons "phaseAgreement" (harray block.phaseAgreement (limitOf request))
    (fields_cons "weightedCoherence" (harray block.weightedCoherence (limitOf request))
    (fields_cons "contributors" (jsonText_array (fun c : UInt16 => jsonText_nat c.toNat)
      block.contributors (limitOf request))
    (fields_last "absence" habsence))))))
  rw [averageFields, averageMembers]
  simpa only [List.append_assoc] using hfields

theorem jsonText_membershipName (membership : Membership) :
    JsonText (stringValue (membershipName membership)) (.string (membershipName membership)) := by
  cases membership with
  | member => exact jsonText_stringValue (isUtf8_bytes _)
  | excludedDifferentReference => exact jsonText_stringValue (isUtf8_bytes _)
  | excludedOverCapacity => exact jsonText_stringValue (isUtf8_bytes _)

theorem jsonText_positionObject (hd : double.Prints) (hf : float.Prints)
    {position : PositionSummary D F} (hname : IsUtf8 position.name) :
    JsonText (positionObject double float position) (positionValue double float position) := by
  have hfields := fields_cons "tfIndex" (jsonText_int position.tfIndex)
    (fields_cons "name" (jsonText_stringValue hname)
    (fields_cons "levelDb" (jsonText_number hf position.levelDb)
    (fields_cons "weightedCoherence" (jsonText_number hf position.weightedCoherence)
    (fields_cons "effectiveAverages" (jsonText_number hd position.effectiveAverages)
    (fields_cons "gatePassed" (jsonText_flag position.gatePassed)
    (fields_cons "overloaded" (jsonText_flag position.overloaded)
    (fields_last "membership" (jsonText_membershipName position.membership))))))))
  have hobject := fields_object hfields (by simp)
  rw [positionObject, positionValue]
  simpa only [List.append_assoc] using hobject

variable {snapshot : Snapshot D F}

theorem jsonText_positionsArray (hd : double.Prints) (hf : float.Prints)
    (hnames : ∀ p ∈ snapshot.positions, IsUtf8 p.name) :
    JsonText (positionsArray double float snapshot) (positionsValue double float snapshot) := by
  rw [positionsArray, List.append_assoc]
  exact jsonText_brackets snapshot.positions
    fun p hp => jsonText_positionObject hd hf (hnames p hp)

theorem fields_spectrum (hd : double.Prints) (hf : float.Prints) (snapshot : Snapshot D F)
    (limit : ℕ) :
    FieldsText (key (bytes "axis") ++
        (uniformAxis double snapshot (emittedCount snapshot.spectrumDb.length limit) ++
          (bytes "," ++ (key (bytes "spectrumDb") ++
            array (number float) snapshot.spectrumDb limit))))
      (spectrumMembers double float snapshot limit) :=
  fields_cons "axis" (jsonText_uniformAxis hd snapshot _)
    (fields_last "spectrumDb" (jsonText_array (jsonText_number hf) snapshot.spectrumDb limit))

section

variable (snapshot : Snapshot D F)

/-- What the smaller bodies begin with. -/
theorem fields_head :
    FieldsText (key (bytes "schemaVersion") ++ (numberNat 1 ++ (bytes "," ++
      (key (bytes "sequence") ++ numberNat snapshot.sequence)))) (headMembers snapshot) :=
  fields_cons "schemaVersion" (jsonText_nat 1)
    (fields_last "sequence" (jsonText_nat snapshot.sequence))

/-! ### No key twice -/

theorem nodup_head_transfer (block : TransferBlock D F) (limit : ℕ) :
    ((headMembers snapshot ++ transferMembers double float snapshot block limit).map
      Prod.fst).Nodup := by
  cases hcoherence : block.coherence with
  | none => simp [headMembers, transferMembers, hcoherence]
  | some coherence => simp [headMembers, transferMembers, hcoherence]

theorem nodup_head_spectrum (limit : ℕ) :
    ((headMembers snapshot ++ spectrumMembers double float snapshot limit).map
      Prod.fst).Nodup := by
  simp [headMembers, spectrumMembers]

theorem nodup_head_mtw (block : MtwBlock D F) (limit : ℕ) :
    ((headMembers snapshot ++ mtwMembers double float block limit).map Prod.fst).Nodup := by
  simp [headMembers, mtwMembers]

theorem nodup_head_average (block : AverageBlock F) (limit : ℕ) :
    ((headMembers snapshot ++ averageMembers float block limit).map Prod.fst).Nodup := by
  simp [headMembers, averageMembers]

end

/-- The members of a block have no key twice where a body that begins with the head has none. -/
theorem nodup_of_head {ms : List Member}
    (h : ((headMembers snapshot ++ ms).map Prod.fst).Nodup) : (ms.map Prod.fst).Nodup := by
  rw [List.map_append] at h
  exact h.of_append_right

theorem keys_elim_sublist {T : Type} (o : Option T) (name : Bytes) (value : T → Json) :
    ((o.elim [] fun block => [(name, value block)] : List Member).map Prod.fst).Sublist [name] := by
  cases o with
  | none => exact List.nil_sublist _
  | some block => exact List.Sublist.refl _

theorem nodup_snapshot (double : FloatText D) (float : FloatText F) (snapshot : Snapshot D F)
    (limit : ℕ) :
    ((statusMembers double snapshot ++
      [(bytes "bands", bandsValue float snapshot),
        (bytes "spectrum", .object (spectrumMembers double float snapshot limit))] ++
      blockMembers double float snapshot limit).map Prod.fst).Nodup := by
  -- with every block there the keys are these
  have hall : ((statusMembers double snapshot).map Prod.fst ++ [bytes "bands", bytes "spectrum"] ++
      ([bytes "transfer"] ++ [bytes "mtw"] ++ [bytes "average"] ++ [bytes "positions"])).Nodup := by
    simp [statusMembers]
  have hpositions : ((if snapshot.positions.isEmpty then []
      else [(bytes "positions", positionsValue double float snapshot)] : List Member).map
        Prod.fst).Sublist [bytes "positions"] := by
    split_ifs
    · exact List.nil_sublist _
    · exact List.Sublist.refl _
  have hblocks : ((blockMembers double float snapshot limit).map Prod.fst).Sublist
      ([bytes "transfer"] ++ [bytes "mtw"] ++ [bytes "average"] ++ [bytes "positions"]) := by
    rw [blockMembers, List.map_append, List.map_append, List.map_append]
    exact (((keys_elim_sublist _ _ _).append (keys_elim_sublist _ _ _)).append
      (keys_elim_sublist _ _ _)).append hpositions
  rw [List.map_append, List.map_append]
  exact hall.sublist ((List.Sublist.refl _).append hblocks)

/-! ### The bodies -/

theorem jsonText_status (hd : double.Prints) (snapshot : Snapshot D F) (settings : ApiSettings) :
    JsonText (serialiseStatus double snapshot settings) (statusValue double snapshot) := by
  have hobject := fields_object (fields_status hd snapshot settings) (by simp [statusMembers])
  rw [serialiseStatus, statusValue]
  simpa only [List.append_assoc] using hobject

section

variable (hd : double.Prints) (hf : float.Prints) (snapshot : Snapshot D F) (request : Request)

include hd hf

theorem jsonText_transfer :
    JsonText (serialiseTransfer double float snapshot request)
      (transferValue double float snapshot (limitOf request)) := by
  have hfields := fields_trailing (fields_head snapshot) (trailing_elim (o := snapshot.transfer)
    fun block => fields_transfer hd hf snapshot block request)
  have hkeys : ((headMembers snapshot ++ snapshot.transfer.elim [] fun block =>
      transferMembers double float snapshot block (limitOf request)).map Prod.fst).Nodup := by
    cases snapshot.transfer with
    | none => simp [headMembers]
    | some block => exact nodup_head_transfer snapshot block _
  rw [serialiseTransfer, transferValue, one_comma]
  simpa only [List.append_assoc] using fields_object hfields hkeys

theorem jsonText_spectrum :
    JsonText (serialiseSpectrum double float snapshot request)
      (spectrumValue double float snapshot (limitOf request)) := by
  have hfields := fields_append (fields_head snapshot)
    (fields_spectrum hd hf snapshot (limitOf request))
  have hobject := fields_object hfields (nodup_head_spectrum snapshot _)
  rw [serialiseSpectrum, spectrumValue, one_comma]
  simpa only [List.append_assoc] using hobject

omit hd hf in
theorem jsonText_bands (hf : float.Prints) (snapshot : Snapshot D F) :
    JsonText (serialiseBands float snapshot) (bandsBodyValue float snapshot) := by
  have hfields := fields_append (fields_head snapshot)
    (fields_cons "fraction" (jsonText_int snapshot.fraction)
    (fields_last "bands" (jsonText_bandsArray hf snapshot)))
  have hobject := fields_object hfields (by simp [headMembers])
  rw [serialiseBands, bandsBodyValue, one_comma]
  simpa only [List.append_assoc] using hobject

theorem jsonText_mtw :
    JsonText (serialiseMtw double float snapshot request)
      (mtwValue double float snapshot (limitOf request)) := by
  have hfields := fields_trailing (fields_head snapshot) (trailing_elim (o := snapshot.mtw)
    fun block => fields_mtw hd hf block request)
  have hkeys : ((headMembers snapshot ++ snapshot.mtw.elim [] fun block =>
      mtwMembers double float block (limitOf request)).map Prod.fst).Nodup := by
    cases snapshot.mtw with
    | none => simp [headMembers]
    | some block => exact nodup_head_mtw snapshot block _
  rw [serialiseMtw, mtwValue, one_comma]
  simpa only [List.append_assoc] using fields_object hfields hkeys

end

theorem jsonText_average (hf : float.Prints) (snapshot : Snapshot D F) (request : Request) :
    JsonText (serialiseAverage float snapshot request)
      (averageValue float snapshot (limitOf request)) := by
  have hfields := fields_trailing (fields_head snapshot) (trailing_elim (o := snapshot.average)
    fun block => fields_average hf block request)
  have hkeys : ((headMembers snapshot ++ snapshot.average.elim [] fun block =>
      averageMembers float block (limitOf request)).map Prod.fst).Nodup := by
    cases snapshot.average with
    | none => simp [headMembers]
    | some block => exact nodup_head_average snapshot block _
  rw [serialiseAverage, averageValue, one_comma]
  simpa only [List.append_assoc] using fields_object hfields hkeys

section

variable (hd : double.Prints) (hf : float.Prints) (hnames : ∀ p ∈ snapshot.positions, IsUtf8 p.name)

include hd hf hnames

theorem jsonText_positions :
    JsonText (serialisePositions double float snapshot)
      (positionsBodyValue double float snapshot) := by
  have hfields := fields_append (fields_head snapshot)
    (fields_last "positions" (jsonText_positionsArray hd hf hnames))
  have hobject := fields_object hfields (by simp [headMembers])
  rw [serialisePositions, positionsBodyValue, one_comma]
  simpa only [List.append_assoc] using hobject

/-- The union: each optional block comes with its comma and its braces, or not at all. -/
theorem jsonText_snapshot (request : Request) :
    JsonText (serialiseSnapshot double float snapshot request)
      (snapshotValue double float snapshot (limitOf request)) := by
  have hspectrum := fields_object (fields_spectrum hd hf snapshot (limitOf request))
    (nodup_of_head (nodup_head_spectrum snapshot (limitOf request)))
  have hbase := fields_append (fields_status hd snapshot {})
    (fields_cons "bands" (jsonText_bandsArray hf snapshot) (fields_last "spectrum" hspectrum))
  have htransfer := trailing_elim (o := snapshot.transfer) fun block =>
    fields_last "transfer" (fields_object (fields_transfer hd hf snapshot block request)
      (nodup_of_head (nodup_head_transfer snapshot block _)))
  have hmtw := trailing_elim (o := snapshot.mtw) fun block =>
    fields_last "mtw" (fields_object (fields_mtw hd hf block request)
      (nodup_of_head (nodup_head_mtw snapshot block _)))
  have haverage := trailing_elim (o := snapshot.average) fun block =>
    fields_last "average" (fields_object (fields_average hf block request)
      (nodup_of_head (nodup_head_average snapshot block _)))
  have hpositions : TrailingText (if snapshot.positions.isEmpty then []
      else bytes "," ++ (key (bytes "positions") ++ positionsArray double float snapshot))
      (if snapshot.positions.isEmpty then []
        else [(bytes "positions", positionsValue double float snapshot)]) := by
    split_ifs
    · exact .inl ⟨rfl, rfl⟩
    · exact .inr ⟨_, rfl, fields_last "positions" (jsonText_positionsArray hd hf hnames)⟩
  have hfields := fields_trailing (fields_trailing (fields_trailing (fields_trailing hbase
    htransfer) hmtw) haverage) hpositions
  have hkeys := nodup_snapshot double float snapshot (limitOf request)
  rw [blockMembers] at hkeys
  rw [serialiseSnapshot, snapshotValue, blockMembers]
  simp only [List.append_assoc] at hfields hkeys ⊢
  have hobject := fields_object hfields hkeys
  simpa only [List.append_assoc] using hobject

/-! ### All of them -/

/-- A body is in UTF-8, is read as a value, and no object of the value has a key twice. -/
structure IsBody (body : Bytes) (value : Json) : Prop where
  utf8 : IsUtf8 body
  readJson : readJson body = some value
  distinctKeys : value.DistinctKeys

omit hd hf hnames in
theorem IsBody.of_jsonText {body : Bytes} {value : Json} (h : JsonText body value) :
    IsBody body value :=
  ⟨h.utf8, h.readJson_eq, h.distinct⟩

/-- The eight bodies are texts of their values. -/
structure ServesBodies (double : FloatText D) (float : FloatText F) (snapshot : Snapshot D F)
    (settings : ApiSettings) (request : Request) : Prop where
  status : IsBody (serialiseStatus double snapshot settings) (statusValue double snapshot)
  union : IsBody (serialiseSnapshot double float snapshot request)
    (snapshotValue double float snapshot (limitOf request))
  transfer : IsBody (serialiseTransfer double float snapshot request)
    (transferValue double float snapshot (limitOf request))
  spectrum : IsBody (serialiseSpectrum double float snapshot request)
    (spectrumValue double float snapshot (limitOf request))
  bands : IsBody (serialiseBands float snapshot) (bandsBodyValue float snapshot)
  mtw : IsBody (serialiseMtw double float snapshot request)
    (mtwValue double float snapshot (limitOf request))
  average : IsBody (serialiseAverage float snapshot request)
    (averageValue float snapshot (limitOf request))
  positions : IsBody (serialisePositions double float snapshot)
    (positionsBodyValue double float snapshot)

theorem servesBodies (settings : ApiSettings)
    (request : Request) : ServesBodies double float snapshot settings request where
  status := .of_jsonText (jsonText_status hd snapshot settings)
  union := .of_jsonText (jsonText_snapshot hd hf hnames request)
  transfer := .of_jsonText (jsonText_transfer hd hf snapshot request)
  spectrum := .of_jsonText (jsonText_spectrum hd hf snapshot request)
  bands := .of_jsonText (jsonText_bands hf snapshot)
  mtw := .of_jsonText (jsonText_mtw hd hf snapshot request)
  average := .of_jsonText (jsonText_average hf snapshot request)
  positions := .of_jsonText (jsonText_positions hd hf hnames)

end

end Texts

end Api

end RtaTool
