import RtaTool.Lib.KeyedLines
import RtaTool.Export.SplReportPayload

/-!
# The calibration record

`SplCalibrationRecord.h`, of what `CalibrationSession::reportFields` reports: lines `# key=value`,
which ones by whether a calibration was performed and whether it is refused. The reader starts from
a record of defaults and fills in what it finds.

So a record that is cut after its first line is read as a performed calibration, with defaults where
the rest was. Which cuts do no harm is `parse_prefix_iff`: where the verdict is a line of the
record, those that reach it, and otherwise those that only leave out what is a default.

## Main definitions

* `CalibrationSession.reportFields`
* `recordPairs`, `calibrationRecordText`, `parseCalibrationRecord`
* `Carried` -- equal in what a text carries
* `Unharmed`, `TornSafely` -- the cuts that do no harm

## Main results

* `foldl_setField` -- the fields depend on what is found for their keys
* `parse_cut` -- what a prefix is read as
* `carried_reported_iff`, `carried_refused_iff` -- when that carries the record
* `parse_prefix_iff` -- **Headline.** The cuts that do no harm
-/

namespace RtaTool

namespace SplCalibrationRecord

/-! ### The session -/

/-- What a calibration needs of doubles. -/
structure CalibrationMath (D : Type) where
  double : CharConv D
  zero : D
  kIec60942Level94Db : D
  kMaxDriftDb : D
  sub : D → D → D
  abs : D → D
  le : D → D → Bool

/-- `CalibrationLevel`. -/
structure CalibrationLevel (D : Type) where
  nominalDb : D
  operatorSupplied : Bool := false

/-- `CalibrationCheck`. -/
structure CalibrationCheck (D : Type) where
  level : CalibrationLevel D
  measuredLevelDb : D
  offsetDb : D
  unixMs : Fin (2 ^ 64) := 0

/-- `CalibrationReportFields`. -/
structure CalibrationReportFields (D : Type) where
  performed : Bool := false
  start : CalibrationCheck D
  finish : CalibrationCheck D
  driftDb : D
  verdict : Option CalibrationVerdict := none
  clause : Bytes := []

/-- `CalibrationSession`. -/
structure CalibrationSession (D : Type) where
  startCheck : Option (CalibrationCheck D)
  endCheck : Option (CalibrationCheck D)

variable {D : Type} (math : CalibrationMath D)

/-- A `CalibrationCheck` that nothing was written to. -/
def defaultCheck : CalibrationCheck D where
  level := { nominalDb := math.kIec60942Level94Db }
  measuredLevelDb := math.zero
  offsetDb := math.zero

/-- `CalibrationReportFields` that nothing was written to. -/
def defaultFields : CalibrationReportFields D where
  start := defaultCheck math
  finish := defaultCheck math
  driftDb := math.zero

namespace CalibrationSession

/-- `kClause`. -/
def kClause : Bytes := bytes "ISO 1996-2:2017 cl. 5.2"

/-- `verdictForDrift(driftDb)`. -/
def verdictForDrift (driftDb : D) : CalibrationVerdict :=
  if math.le driftDb math.kMaxDriftDb then .pass else .fail

/-- `driftDb()`. -/
def driftDb (s : CalibrationSession D) : Option D :=
  match s.startCheck, s.endCheck with
  | some start, some finish => some (math.abs (math.sub finish.offsetDb start.offsetDb))
  | _, _ => none

/-- `verdict()`. -/
def verdict (s : CalibrationSession D) : Option CalibrationVerdict :=
  (s.driftDb math).map (verdictForDrift math)

/-- `reportFields()`. -/
def reportFields (s : CalibrationSession D) : CalibrationReportFields D :=
  let fields := { defaultFields math with clause := kClause }
  match s.startCheck, s.endCheck with
  | some start, some finish =>
    { fields with
      performed := true
      start := start
      finish := finish
      driftDb := math.abs (math.sub finish.offsetDb start.offsetDb)
      verdict := s.verdict math }
  | _, _ => fields

theorem verdict_reportFields (s : CalibrationSession D)
    (h : (s.reportFields math).performed = true) : ∃ v, (s.reportFields math).verdict = some v := by
  rw [reportFields.eq_def] at h ⊢
  obtain ⟨_ | start, _ | finish⟩ := s
  · cases h
  · cases h
  · cases h
  · exact ⟨_, rfl⟩

theorem clause_reportFields (s : CalibrationSession D) :
    (s.reportFields math).clause = kClause := by
  rw [reportFields.eq_def]
  obtain ⟨_ | start, _ | finish⟩ := s <;> rfl

end CalibrationSession

/-! ### The record -/

/-- A signed integer of `bits`. -/
structure CInt (bits : ℕ) where
  val : ℤ
  inRange : -2 ^ (bits - 1) ≤ val ∧ val < 2 ^ (bits - 1)
  deriving DecidableEq

instance (bits : ℕ) : Zero (CInt bits) := ⟨0, by simp⟩

/-- `std::to_chars` and `std::from_chars` for a signed type. -/
def intConv (bits : ℕ) : CharConv (CInt bits) where
  toChars x := decimalInt x.val
  fromChars v := (readDecimalInt v).bind fun r =>
    if h : -2 ^ (bits - 1) ≤ r.1 ∧ r.1 < 2 ^ (bits - 1) then some (⟨r.1, h⟩, r.2) else none
  fromChars_toChars x := by
    have h := decimalConv.fromChars_toChars x.val
    change readDecimalInt (decimalInt x.val) = _ at h
    rw [h, Option.bind_some, dif_pos x.inRange]
  toChars_ne_nil x := decimalConv.toChars_ne_nil x.val
  toChars_plain x := decimalConv.toChars_plain x.val

/-- `SplCalibrationRecordInfo`. -/
structure RecordInfo (D : Type) where
  fields : CalibrationReportFields D
  channel : CInt 32 := 0
  startBlockIndex : Fin (2 ^ 64) := 0
  endBlockIndex : Fin (2 ^ 64) := 0
  refusal : CalibrationRecordRefusal := .none
  offsetApplied : Bool := true

/-- A flag, as it is written. -/
def flagChars (flag : Bool) : Bytes := (uintConv 64).toChars (if flag then 1 else 0)

/-- The lines on both checks. -/
def checkPairs (fields : CalibrationReportFields D) : List (Bytes × Bytes) :=
  [(bytes "startMeasuredLevelDb", math.double.toChars fields.start.measuredLevelDb),
    (bytes "startNominalLevelDb", math.double.toChars fields.start.level.nominalDb),
    (bytes "startOperatorSupplied", flagChars fields.start.level.operatorSupplied),
    (bytes "startUnixMs", (uintConv 64).toChars fields.start.unixMs),
    (bytes "endMeasuredLevelDb", math.double.toChars fields.finish.measuredLevelDb),
    (bytes "endNominalLevelDb", math.double.toChars fields.finish.level.nominalDb),
    (bytes "endOperatorSupplied", flagChars fields.finish.level.operatorSupplied),
    (bytes "endUnixMs", (uintConv 64).toChars fields.finish.unixMs)]

/-- The text of a verdict. -/
def verdictText (verdict : Option CalibrationVerdict) : Bytes :=
  if verdict = some .pass then bytes "pass" else bytes "fail"

/-- The text of a refusal. -/
def refusalText (refusal : CalibrationRecordRefusal) : Bytes :=
  if refusal = .channelMismatch then bytes "channelMismatch" else bytes "noMeasurementChannel"

/-- The keys and values of `calibrationRecordText`, in order. -/
def recordPairs (info : RecordInfo D) : List (Bytes × Bytes) :=
  (bytes "calibrationPerformed", flagChars info.fields.performed) ::
    if !info.fields.performed then []
    else
      (bytes "offsetApplied", flagChars info.offsetApplied) ::
        if info.refusal = .none then
          [(bytes "channel", (intConv 32).toChars info.channel),
            (bytes "startBlockIndex", (uintConv 64).toChars info.startBlockIndex),
            (bytes "endBlockIndex", (uintConv 64).toChars info.endBlockIndex)] ++
            checkPairs math info.fields ++
            [(bytes "driftDb", math.double.toChars info.fields.driftDb),
              (bytes "verdict", verdictText info.fields.verdict),
              (bytes "clause", info.fields.clause)]
        else
          (bytes "refusalReason", refusalText info.refusal) :: checkPairs math info.fields ++
            [(bytes "clause", info.fields.clause)]

/-- `calibrationRecordText(info)`. -/
def calibrationRecordText (info : RecordInfo D) : Bytes :=
  (recordPairs math info).flatMap fun kv => commentMark ++ sessionFormat.writeLine kv.1 kv.2

/-! ### Reading -/

/-- One key and its value, other than the first one. -/
def setField (info : RecordInfo D) (key value : Bytes) : RecordInfo D :=
  let flag (out : Bool) : Bool :=
    match (intConv 32).tryParse value with
    | some v => v ≠ 0
    | none => out
  if key = bytes "channel" then
    { info with channel := ((intConv 32).tryParseInto value info.channel).2 }
  else if key = bytes "startBlockIndex" then
    { info with startBlockIndex := ((uintConv 64).tryParseInto value info.startBlockIndex).2 }
  else if key = bytes "endBlockIndex" then
    { info with endBlockIndex := ((uintConv 64).tryParseInto value info.endBlockIndex).2 }
  else if key = bytes "startMeasuredLevelDb" then
    { info with fields.start.measuredLevelDb :=
        (math.double.tryParseInto value info.fields.start.measuredLevelDb).2 }
  else if key = bytes "startNominalLevelDb" then
    { info with fields.start.level.nominalDb :=
        (math.double.tryParseInto value info.fields.start.level.nominalDb).2 }
  else if key = bytes "startOperatorSupplied" then
    { info with fields.start.level.operatorSupplied :=
        (flag info.fields.start.level.operatorSupplied) }
  else if key = bytes "startUnixMs" then
    { info with fields.start.unixMs :=
        ((uintConv 64).tryParseInto value info.fields.start.unixMs).2 }
  else if key = bytes "endMeasuredLevelDb" then
    { info with fields.finish.measuredLevelDb :=
        (math.double.tryParseInto value info.fields.finish.measuredLevelDb).2 }
  else if key = bytes "endNominalLevelDb" then
    { info with fields.finish.level.nominalDb :=
        (math.double.tryParseInto value info.fields.finish.level.nominalDb).2 }
  else if key = bytes "endOperatorSupplied" then
    { info with fields.finish.level.operatorSupplied :=
        (flag info.fields.finish.level.operatorSupplied) }
  else if key = bytes "endUnixMs" then
    { info with fields.finish.unixMs :=
        ((uintConv 64).tryParseInto value info.fields.finish.unixMs).2 }
  else if key = bytes "driftDb" then
    { info with fields.driftDb := (math.double.tryParseInto value info.fields.driftDb).2 }
  else if key = bytes "verdict" then
    { info with fields.verdict := if value = bytes "pass" then some .pass else some .fail }
  else if key = bytes "refusalReason" then
    { info with refusal :=
        if value = bytes "channelMismatch" then .channelMismatch else .noMeasurementChannel }
  else if key = bytes "offsetApplied" then { info with offsetApplied := flag info.offsetApplied }
  else info

/-- The locals of `parseCalibrationRecord`. -/
structure RecordScan (D : Type) where
  info : RecordInfo D
  sawPerformed : Bool

/-- One line's key and value; nothing is left of a record whose first key cannot be read. -/
def readKey (s : RecordScan D) (kv : Bytes × Bytes) : Option (RecordScan D) :=
  if kv.1 = bytes "calibrationPerformed" then
    match (intConv 32).tryParse kv.2 with
    | none => none
    | some v => some { info := { s.info with fields.performed := v ≠ 0 }, sawPerformed := true }
  else some { s with info := setField math s.info kv.1 kv.2 }

/-- `parseCalibrationRecord(text)`. -/
def parseCalibrationRecord (text : Bytes) : Option (RecordInfo D) := do
  let s ← (sessionFormat.readPairs commentMark text).foldlM (readKey math)
    { info := { fields := defaultFields math }, sawPerformed := false }
  if !s.sawPerformed then none
  else if s.info.fields.performed then
    some { s.info with fields.clause := CalibrationSession.kClause }
  else some s.info

/-! ### The fields, from what is found for their keys -/

/-- What is read of a number. -/
def numberAt {α : Type} (conv : CharConv α) (found : Option Bytes) (out : α) : α :=
  match found with
  | none => out
  | some v => (conv.tryParseInto v out).2

/-- What is read of a flag. -/
def flagAt (found : Option Bytes) (out : Bool) : Bool :=
  match found with
  | none => out
  | some value =>
    match (intConv 32).tryParse value with
    | some v => v ≠ 0
    | none => out

/-- What is read of a check. -/
def checkAt (found : Bytes → Option Bytes) (measured nominal supplied time : Bytes) :
    CalibrationCheck D where
  level :=
    { nominalDb := numberAt math.double (found nominal) math.kIec60942Level94Db
      operatorSupplied := flagAt (found supplied) false }
  measuredLevelDb := numberAt math.double (found measured) math.zero
  offsetDb := math.zero
  unixMs := numberAt (uintConv 64) (found time) 0

/-- The record of a performed calibration, from what is found for each key. -/
def readBack (found : Bytes → Option Bytes) : RecordInfo D where
  fields :=
    { performed := true
      start := checkAt math found (bytes "startMeasuredLevelDb") (bytes "startNominalLevelDb")
        (bytes "startOperatorSupplied") (bytes "startUnixMs")
      finish := checkAt math found (bytes "endMeasuredLevelDb") (bytes "endNominalLevelDb")
        (bytes "endOperatorSupplied") (bytes "endUnixMs")
      driftDb := numberAt math.double (found (bytes "driftDb")) math.zero
      verdict := (found (bytes "verdict")).map fun v => if v = bytes "pass" then .pass else .fail }
  channel := numberAt (intConv 32) (found (bytes "channel")) 0
  startBlockIndex := numberAt (uintConv 64) (found (bytes "startBlockIndex")) 0
  endBlockIndex := numberAt (uintConv 64) (found (bytes "endBlockIndex")) 0
  refusal := (found (bytes "refusalReason")).elim .none fun v =>
    if v = bytes "channelMismatch" then .channelMismatch else .noMeasurementChannel
  offsetApplied := flagAt (found (bytes "offsetApplied")) true

/-- The keys that have a field, other than the first one. -/
def fieldKeys : List Bytes :=
  [bytes "channel", bytes "startBlockIndex", bytes "endBlockIndex", bytes "startMeasuredLevelDb",
    bytes "startNominalLevelDb", bytes "startOperatorSupplied", bytes "startUnixMs",
    bytes "endMeasuredLevelDb", bytes "endNominalLevelDb", bytes "endOperatorSupplied",
    bytes "endUnixMs", bytes "driftDb", bytes "verdict", bytes "refusalReason",
    bytes "offsetApplied"]

theorem setField_readBack {found : Bytes → Option Bytes} {key : Bytes} (h : found key = none)
    (value : Bytes) :
    setField math (readBack math found) key value =
      readBack math (Function.update found key (some value)) := by
  by_cases hkey : key ∈ fieldKeys
  · simp only [fieldKeys, List.mem_cons, List.not_mem_nil, or_false] at hkey
    rcases hkey with rfl | rfl | rfl | rfl | rfl | rfl | rfl | rfl | rfl | rfl | rfl | rfl | rfl |
      rfl | rfl
    all_goals simp [setField, readBack, checkAt, numberAt, flagAt, h, Function.update]
    split_ifs <;> rfl
  · simp only [fieldKeys, List.mem_cons, List.not_mem_nil, or_false, not_or] at hkey
    have hother : ∀ wanted, key ≠ wanted →
        Function.update found key (some value) wanted = found wanted := fun wanted hne =>
      Function.update_of_ne (Ne.symm hne) _ _
    simp [setField, readBack, checkAt, hkey, hother]

/-- What is read of pairs with different keys. -/
theorem foldl_setField {pairs : List (Bytes × Bytes)} (hnodup : (pairs.map Prod.fst).Nodup) :
    pairs.foldl (fun info kv => setField math info kv.1 kv.2) (readBack math fun _ => none) =
      readBack math fun key => pairs.lookup key := by
  induction pairs using List.reverseRecOn with
  | nil => rfl
  | append_singleton pairs kv ih =>
    rw [List.map_append, List.nodup_append] at hnodup
    obtain ⟨hpairs, -, hnew⟩ := hnodup
    have hnone : pairs.lookup kv.1 = none :=
      LineFormat.lookup_eq_none_of_notMem fun hmem => hnew _ hmem _ (by simp) rfl
    have hupdate : Function.update (fun key => pairs.lookup key) kv.1 (some kv.2) =
        fun key => (pairs ++ [kv]).lookup key := by
      funext key
      rw [List.lookup_append]
      by_cases hkey : key = kv.1
      · rw [hkey, Function.update_self, hnone, Option.none_or, List.lookup_cons_self]
      · have hbeq : (key == kv.1) = false := beq_eq_false_iff_ne.mpr hkey
        rw [Function.update_of_ne hkey, List.lookup_cons, hbeq]
        simp
    rw [List.foldl_append, ih hpairs, List.foldl_cons, List.foldl_nil, setField_readBack math hnone,
      hupdate]

/-! ### A text that is cut -/

variable {math} {info : RecordInfo D}

theorem map_fst_recordPairs (info : RecordInfo D) :
    ((recordPairs math info).map Prod.fst).Nodup := by
  rw [recordPairs]
  split_ifs
  · simp
  · simp [checkPairs]
  · simp [checkPairs]

theorem plainPair_of_mem {key value : Bytes}
    (hkey : key ∈ bytes "calibrationPerformed" :: bytes "clause" :: fieldKeys)
    (hvalue : ∀ c ∈ value, c ≠ sessionFormat.esc ∧ c ≠ sessionFormat.newline ∧
      c ≠ sessionFormat.carriageReturn) : sessionFormat.PlainPair (key, value) := by
  have hkeys : ∀ key ∈ bytes "calibrationPerformed" :: bytes "clause" :: fieldKeys,
      sessionFormat.PlainKey key ∧ sessionFormat.carriageReturn ∉ key := by decide
  exact ⟨(hkeys key hkey).1, (hkeys key hkey).2, hvalue⟩

/-- A value given byte by byte. -/
theorem plainValue_of_all {value : Bytes}
    (h : (value.all fun c => c ≠ sessionFormat.esc ∧ c ≠ sessionFormat.newline ∧
      c ≠ sessionFormat.carriageReturn) = true) :
    ∀ c ∈ value, c ≠ sessionFormat.esc ∧ c ≠ sessionFormat.newline ∧
      c ≠ sessionFormat.carriageReturn :=
  fun c hc => of_decide_eq_true (List.all_eq_true.mp h c hc)

theorem plainPair_checkPairs (math : CalibrationMath D) (fields : CalibrationReportFields D) :
    ∀ kv ∈ checkPairs math fields, sessionFormat.PlainPair kv := by
  have hdouble : ∀ key ∈ fieldKeys, ∀ x, sessionFormat.PlainPair (key, math.double.toChars x) :=
    fun key hkey x => plainPair_of_mem (List.mem_cons_of_mem _ (List.mem_cons_of_mem _ hkey))
      (math.double.toChars_plain x)
  have huint : ∀ key ∈ fieldKeys, ∀ x, sessionFormat.PlainPair (key, (uintConv 64).toChars x) :=
    fun key hkey x => plainPair_of_mem (List.mem_cons_of_mem _ (List.mem_cons_of_mem _ hkey))
      ((uintConv 64).toChars_plain x)
  simp only [checkPairs, List.forall_mem_cons]
  refine ⟨hdouble _ ?_ _, hdouble _ ?_ _, huint _ ?_ _, huint _ ?_ _, hdouble _ ?_ _,
    hdouble _ ?_ _, huint _ ?_ _, huint _ ?_ _, by simp⟩
  all_goals simp [fieldKeys]

theorem plainPair_recordPairs (hclause : info.fields.clause = CalibrationSession.kClause) :
    ∀ kv ∈ recordPairs math info, sessionFormat.PlainPair kv := by
  have hperformed : sessionFormat.PlainPair
      (bytes "calibrationPerformed", flagChars info.fields.performed) :=
    plainPair_of_mem List.mem_cons_self ((uintConv 64).toChars_plain _)
  have happlied : sessionFormat.PlainPair (bytes "offsetApplied", flagChars info.offsetApplied) :=
    plainPair_of_mem (by simp [fieldKeys]) ((uintConv 64).toChars_plain _)
  have hlast : sessionFormat.PlainPair (bytes "clause", info.fields.clause) := by
    rw [hclause]
    exact plainPair_of_mem (by simp) (plainValue_of_all (by decide))
  have hcheck := plainPair_checkPairs math info.fields
  have hverdict : sessionFormat.PlainPair (bytes "verdict", verdictText info.fields.verdict) := by
    refine plainPair_of_mem (by simp [fieldKeys]) ?_
    rw [verdictText]
    split_ifs <;> exact plainValue_of_all (by decide)
  have hrefusal : sessionFormat.PlainPair (bytes "refusalReason", refusalText info.refusal) := by
    refine plainPair_of_mem (by simp [fieldKeys]) ?_
    rw [refusalText]
    split_ifs <;> exact plainValue_of_all (by decide)
  rw [recordPairs, List.forall_mem_cons, and_iff_right hperformed]
  split_ifs
  · simp
  · rw [List.forall_mem_cons, and_iff_right happlied, List.forall_mem_append,
      List.forall_mem_append]
    refine ⟨⟨?_, hcheck⟩, ?_⟩
    · simp only [List.forall_mem_cons]
      refine ⟨plainPair_of_mem ?_ ((intConv 32).toChars_plain _),
        plainPair_of_mem ?_ ((uintConv 64).toChars_plain _),
        plainPair_of_mem ?_ ((uintConv 64).toChars_plain _), by simp⟩
      all_goals simp [fieldKeys]
    · simp only [List.forall_mem_cons]
      exact ⟨plainPair_of_mem (by simp [fieldKeys]) (math.double.toChars_plain _), hverdict, hlast,
        by simp⟩
  · rw [List.forall_mem_cons, and_iff_right happlied, List.cons_append, List.forall_mem_cons,
      and_iff_right hrefusal, List.forall_mem_append]
    exact ⟨hcheck, by simpa using hlast⟩

theorem calibrationRecordText_eq (info : RecordInfo D) :
    calibrationRecordText math info = joinLines sessionFormat.newline
      ((recordPairs math info).map (sessionFormat.markedLine commentMark)) := by
  rw [calibrationRecordText, joinLines, List.flatMap_map]
  simp only [LineFormat.markedLine, LineFormat.writeLine, List.append_assoc]

theorem readPairs_prefix (hclause : info.fields.clause = CalibrationSession.kClause) {p : Bytes}
    (hp : p <+: calibrationRecordText math info) :
    sessionFormat.readPairs commentMark p =
      LineFormat.cutPairs commentMark (recordPairs math info) p.length := by
  rw [calibrationRecordText_eq] at hp
  exact LineFormat.readPairs_cut (by decide) (plainPair_recordPairs hclause) hp

/-- Past the first key nothing is refused. -/
theorem foldlM_readKey {pairs : List (Bytes × Bytes)}
    (hpairs : bytes "calibrationPerformed" ∉ pairs.map Prod.fst) (s : RecordScan D) :
    pairs.foldlM (readKey math) s =
      some { s with info := pairs.foldl (fun info kv => setField math info kv.1 kv.2) s.info } := by
  induction pairs generalizing s with
  | nil => rfl
  | cons kv pairs ih =>
    rw [List.map_cons, List.mem_cons, not_or] at hpairs
    rw [List.foldlM_cons, readKey, if_neg (Ne.symm hpairs.1)]
    exact ih hpairs.2 _

/-- Where the value of the first key begins. -/
theorem valueStart_performed (info : RecordInfo D) :
    LineFormat.valueStart commentMark (recordPairs math info) (bytes "calibrationPerformed") =
      LineFormat.valueOffset commentMark (bytes "calibrationPerformed") := by
  rw [recordPairs, LineFormat.valueStart, if_pos rfl]

theorem flagChars_eq (flag : Bool) : flagChars flag = if flag then bytes "1" else bytes "0" := by
  cases flag <;> decide

/-- A prefix without the value of the first key is no record, and one with it is read as what is
found in it. -/
theorem parse_cut (hclause : info.fields.clause = CalibrationSession.kClause) {p : Bytes}
    (hp : p <+: calibrationRecordText math info) :
    parseCalibrationRecord math p =
      if p.length ≤ LineFormat.valueStart commentMark (recordPairs math info)
        (bytes "calibrationPerformed") then none
      else if info.fields.performed then
        some (let found := readBack math fun key =>
            (LineFormat.cutPairs commentMark (recordPairs math info) p.length).lookup key
          { found with fields.clause := CalibrationSession.kClause })
      else some { fields := defaultFields math } := by
  have hnodup := (LineFormat.map_fst_cutPairs_sublist commentMark (recordPairs math info)
    p.length).nodup (map_fst_recordPairs info)
  obtain ⟨rest, hrest, hnone⟩ : ∃ rest,
      recordPairs math info =
        (bytes "calibrationPerformed", flagChars info.fields.performed) :: rest ∧
        (info.fields.performed = false → rest = []) := by
    refine ⟨_, rfl, fun h => ?_⟩
    rw [h]
    rfl
  have hflag : (flagChars info.fields.performed).length = 1 := by
    rw [flagChars_eq]
    split_ifs <;> decide
  rw [parseCalibrationRecord, readPairs_prefix hclause hp, valueStart_performed]
  rw [hrest, LineFormat.cutPairs] at hnodup ⊢
  obtain hlt | heq | hgt := Nat.lt_trichotomy p.length
    (LineFormat.valueOffset commentMark (bytes "calibrationPerformed"))
  · rw [if_pos hlt, if_pos hlt.le]
    rfl
  · rw [if_neg heq.ge.not_gt, if_pos heq.le, heq, Nat.sub_self]
    rfl
  · rw [if_neg hgt.not_gt, List.take_of_length_le (by omega)] at hnodup ⊢
    rw [if_neg hgt.not_ge]
    set tail := LineFormat.cutPairs commentMark rest (p.length -
      (LineFormat.valueOffset commentMark (bytes "calibrationPerformed") +
        (flagChars info.fields.performed).length + 1)) with htail
    rw [List.map_cons, List.nodup_cons] at hnodup
    have hread : ∀ b, readKey math
        { info := { fields := defaultFields math }, sawPerformed := false }
        (bytes "calibrationPerformed", flagChars b) =
        some { info := { fields := { defaultFields math with performed := b } }
               sawPerformed := true } := by
      intro b
      rw [readKey, if_pos rfl, flagChars_eq]
      cases b <;> rfl
    rw [List.foldlM_cons, hread]
    simp only [bind, Option.bind]
    rw [foldlM_readKey hnodup.1]
    cases hperformed : info.fields.performed with
    | false =>
      rw [htail, hnone hperformed]
      rfl
    | true =>
      rw [hperformed] at htail
      have hfold := @foldl_setField D math
        ((bytes "calibrationPerformed", flagChars true) :: tail)
        (by rw [List.map_cons, List.nodup_cons]; exact hnodup)
      have hskip : setField math (readBack math fun _ => none) (bytes "calibrationPerformed")
          (flagChars true) = { fields := { defaultFields math with performed := true } } := by
        simp [setField]
        rfl
      rw [List.foldl_cons, hskip] at hfold
      dsimp only
      rw [hfold]
      rfl

/-! ### What a cut leaves of a field -/

/-- `std::to_chars` writes the shortest text: no shorter beginning of it is read as the number. -/
def Shortest {α : Type} (conv : CharConv α) : Prop :=
  ∀ x w rest, w <+: conv.toChars x → conv.fromChars w = some (x, rest) → w = conv.toChars x

theorem shortest_uintConv (bits : ℕ) : Shortest (uintConv bits) := by
  intro x w rest hp hread
  obtain ⟨⟨n, rest'⟩, hn, hfits⟩ := Option.bind_eq_some_iff.mp hread
  split_ifs at hfits with hlt
  obtain ⟨hx, rfl⟩ := Prod.mk.inj (Option.some.inj hfits)
  obtain rfl : n = x.val := congrArg Fin.val hx
  exact eq_decimal_of_readDecimal hp hn

/-- A number is unharmed: its text is whole, or it is what is there already and nothing else can be
read. -/
def Unharmed {α : Type} (conv : CharConv α) (x out : α) (start n : ℕ) : Prop :=
  start + (conv.toChars x).length ≤ n ∨
    x = out ∧ (n ≤ start ∨ conv.fromChars ((conv.toChars x).take (n - start)) = none)

/-- What is found of a value, in a text that is cut at `n`. -/
def foundAt (value : Bytes) (start n : ℕ) : Option Bytes :=
  if n < start then none else some (value.take (n - start))

theorem numberAt_eq_iff {α : Type} {conv : CharConv α} (hshort : Shortest conv) (x out : α)
    (start n : ℕ) :
    numberAt conv (foundAt (conv.toChars x) start n) out = x ↔ Unharmed conv x out start n := by
  have hne := List.length_pos_iff.mpr (conv.toChars_ne_nil x)
  obtain hle | hgt := le_or_gt n start
  · -- nothing of the value is there
    have hout : numberAt conv (foundAt (conv.toChars x) start n) out = out := by
      rw [foundAt]
      split_ifs
      · rfl
      · rw [Nat.sub_eq_zero_of_le hle]
        rfl
    rw [hout, Unharmed, or_iff_right (by omega), and_iff_left (.inl hle)]
    exact eq_comm
  · have htake : (conv.toChars x).take (n - start) ≠ [] := by
      rw [← List.length_pos_iff, List.length_take]
      omega
    rw [foundAt, if_neg hgt.not_gt, numberAt, CharConv.tryParseInto, if_neg htake, Unharmed,
      or_iff_right hgt.not_ge]
    cases hread : conv.fromChars ((conv.toChars x).take (n - start)) with
    | none =>
      have hcut : ¬ start + (conv.toChars x).length ≤ n := by
        intro hwhole
        rw [List.take_of_length_le (by omega), conv.fromChars_toChars] at hread
        cases hread
      rw [or_iff_right hcut, and_iff_left rfl]
      exact eq_comm
    | some read =>
      obtain ⟨y, rest⟩ := read
      rw [or_iff_left (by simp)]
      constructor
      · rintro rfl
        have hwhole := congrArg List.length (hshort _ _ _ (List.take_prefix _ _) hread)
        rw [List.length_take] at hwhole
        omega
      · intro hwhole
        rw [List.take_of_length_le (by omega), conv.fromChars_toChars] at hread
        exact (Prod.mk.inj (Option.some.inj hread)).1.symm

theorem flagAt_eq_iff (flag : Bool) (start n : ℕ) :
    flagAt (foundAt (flagChars flag) start n) false = flag ↔ start + 1 ≤ n ∨ flag = false := by
  obtain hle | hgt := le_or_gt n start
  · have hout : flagAt (foundAt (flagChars flag) start n) false = false := by
      rw [foundAt]
      split_ifs
      · rfl
      · rw [Nat.sub_eq_zero_of_le hle]
        rfl
    rw [hout, or_iff_right (by omega)]
    exact eq_comm
  · have hwhole : (flagChars flag).take (n - start) = flagChars flag := by
      refine List.take_of_length_le ?_
      rw [flagChars_eq]
      split_ifs <;> (change 1 ≤ _; omega)
    rw [foundAt, if_neg hgt.not_gt, hwhole]
    refine iff_of_true ?_ (.inl hgt)
    rw [flagChars_eq]
    cases flag <;> decide

/-! ### What a text carries -/

/-- Equal in what a text carries of a check. -/
def CheckCarried (written read : CalibrationCheck D) : Prop :=
  read.measuredLevelDb = written.measuredLevelDb ∧ read.level.nominalDb = written.level.nominalDb ∧
    read.level.operatorSupplied = written.level.operatorSupplied ∧ read.unixMs = written.unixMs

/-- Equal in every field that a text carries. -/
def Carried (written read : RecordInfo D) : Prop :=
  read.fields.performed = written.fields.performed ∧
    (written.fields.performed = true →
      read.offsetApplied = written.offsetApplied ∧ read.refusal = written.refusal ∧
      CheckCarried written.fields.start read.fields.start ∧
      CheckCarried written.fields.finish read.fields.finish ∧
      (written.refusal = .none →
        read.channel = written.channel ∧ read.startBlockIndex = written.startBlockIndex ∧
        read.endBlockIndex = written.endBlockIndex ∧
        read.fields.driftDb = written.fields.driftDb ∧
        read.fields.verdict = written.fields.verdict))

variable (math) in
/-- A check is unharmed by a cut at `n`. -/
def CheckUnharmed (check : CalibrationCheck D) (start : Bytes → ℕ) (n : ℕ)
    (measured nominal supplied time : Bytes) : Prop :=
  Unharmed math.double check.measuredLevelDb math.zero (start measured) n ∧
    Unharmed math.double check.level.nominalDb math.kIec60942Level94Db (start nominal) n ∧
    (start supplied + 1 ≤ n ∨ check.level.operatorSupplied = false) ∧
    Unharmed (uintConv 64) check.unixMs 0 (start time) n

theorem checkCarried_iff (hshort : Shortest math.double) {check : CalibrationCheck D}
    {found : Bytes → Option Bytes} {start : Bytes → ℕ} {n : ℕ}
    {measured nominal supplied time : Bytes}
    (hmeasured : found measured =
      foundAt (math.double.toChars check.measuredLevelDb) (start measured) n)
    (hnominal : found nominal =
      foundAt (math.double.toChars check.level.nominalDb) (start nominal) n)
    (hsupplied : found supplied =
      foundAt (flagChars check.level.operatorSupplied) (start supplied) n)
    (htime : found time = foundAt ((uintConv 64).toChars check.unixMs) (start time) n) :
    CheckCarried check (checkAt math found measured nominal supplied time) ↔
      CheckUnharmed math check start n measured nominal supplied time := by
  rw [CheckCarried, CheckUnharmed, checkAt]
  dsimp only
  rw [hmeasured, hnominal, hsupplied, htime, numberAt_eq_iff hshort, numberAt_eq_iff hshort,
    flagAt_eq_iff, numberAt_eq_iff (shortest_uintConv 64)]

variable (math) in
/-- The cuts that do no harm: those before the first value, and of a calibration that was performed,
if it is not refused those that reach the verdict, and if it is those that reach the reason and
leave out defaults only. -/
def TornSafely (info : RecordInfo D) (n : ℕ) : Prop :=
  let start := LineFormat.valueStart commentMark (recordPairs math info)
  info.fields.performed = false ∨ n ≤ start (bytes "calibrationPerformed") ∨
    if info.refusal = .none then
      start (bytes "verdict") + (if info.fields.verdict = some .pass then 4 else 0) ≤ n
    else
      start (bytes "refusalReason") + (if info.refusal = .channelMismatch then 15 else 0) ≤ n ∧
        CheckUnharmed math info.fields.start start n (bytes "startMeasuredLevelDb")
          (bytes "startNominalLevelDb") (bytes "startOperatorSupplied") (bytes "startUnixMs") ∧
        CheckUnharmed math info.fields.finish start n (bytes "endMeasuredLevelDb")
          (bytes "endNominalLevelDb") (bytes "endOperatorSupplied") (bytes "endUnixMs")

theorem numberAt_whole {α : Type} (conv : CharConv α) (x out : α) :
    numberAt conv (some (conv.toChars x)) out = x := by
  rw [numberAt, CharConv.tryParseInto, if_neg (conv.toChars_ne_nil x), conv.fromChars_toChars]

theorem flagAt_whole (flag out : Bool) : flagAt (some (flagChars flag)) out = flag := by
  rw [flagChars_eq]
  cases flag <;> cases out <;> decide

theorem checkAt_whole {check : CalibrationCheck D} {found : Bytes → Option Bytes}
    {measured nominal supplied time : Bytes}
    (hmeasured : found measured = some (math.double.toChars check.measuredLevelDb))
    (hnominal : found nominal = some (math.double.toChars check.level.nominalDb))
    (hsupplied : found supplied = some (flagChars check.level.operatorSupplied))
    (htime : found time = some ((uintConv 64).toChars check.unixMs)) :
    CheckCarried check (checkAt math found measured nominal supplied time) := by
  rw [CheckCarried, checkAt]
  dsimp only
  rw [hmeasured, hnominal, hsupplied, htime]
  exact ⟨numberAt_whole _ _ _, numberAt_whole _ _ _, flagAt_whole _ _, numberAt_whole _ _ _⟩

/-- Of a word that is cut, it is the whole of it that is recognised. -/
theorem readWord_eq_iff {β : Type} {this other : β} (hne : this ≠ other) (word : Bytes) (k : ℕ) :
    (if word.take k = word then this else other) = this ↔ word.length ≤ k := by
  by_cases hlong : word.length ≤ k
  · rw [if_pos (List.take_of_length_le hlong)]
    exact iff_of_true rfl hlong
  · rw [if_neg (by rwa [List.take_eq_self_iff])]
    exact iff_of_false hne.symm hlong

theorem readWord_of_not_prefix {β : Type} {word another : Bytes} (h : ¬ word <+: another)
    (this other : β) (k : ℕ) : (if another.take k = word then this else other) = other := by
  rw [if_neg]
  intro heq
  exact h (heq ▸ List.take_prefix k another)

/-! ### A record that is cut -/

/-- What is found for a key in a text that is cut at `n`. -/
def foundIn (math : CalibrationMath D) (info : RecordInfo D) (n : ℕ) (key : Bytes) :
    Option Bytes :=
  (LineFormat.cutPairs commentMark (recordPairs math info) n).lookup key

theorem foundIn_eq (info : RecordInfo D) (n : ℕ) : ∀ kv ∈ recordPairs math info,
    foundIn math info n kv.1 =
      foundAt kv.2 (LineFormat.valueStart commentMark (recordPairs math info) kv.1) n :=
  LineFormat.lookup_cutPairs_of_mem commentMark (map_fst_recordPairs info) n

theorem foundIn_of_notMem {key : Bytes} (h : key ∉ (recordPairs math info).map Prod.fst) (n : ℕ) :
    foundIn math info n key = none :=
  LineFormat.lookup_eq_none_of_notMem fun hmem =>
    h ((LineFormat.map_fst_cutPairs_sublist commentMark _ n).subset hmem)

theorem foundIn_of_reached {first second : List (Bytes × Bytes)} {key value : Bytes}
    (hpairs : recordPairs math info = first ++ (key, value) :: second) {n : ℕ}
    (hreached : LineFormat.valueStart commentMark (recordPairs math info) key ≤ n) :
    ∀ kv ∈ first, foundIn math info n kv.1 = some kv.2 := by
  have hnodup := @map_fst_recordPairs D math info
  rw [hpairs, List.map_append, List.nodup_append] at hnodup
  rw [hpairs] at hreached
  intro kv hkv
  rw [foundIn, hpairs]
  refine LineFormat.lookup_cutPairs_of_reached commentMark hnodup.1 ?_ hreached kv hkv
  exact fun hmem => hnodup.2.2 key hmem key (by simp) rfl

/-- A calibration that is not refused, cut at `n`. -/
theorem carried_reported_iff {v : CalibrationVerdict} (hperformed : info.fields.performed = true)
    (hrefusal : info.refusal = .none) (hverdict : info.fields.verdict = some v) (n : ℕ)
    (clause : Bytes) :
    Carried info { readBack math (foundIn math info n) with fields.clause := clause } ↔
      LineFormat.valueStart commentMark (recordPairs math info) (bytes "verdict") +
        (if info.fields.verdict = some .pass then 4 else 0) ≤ n := by
  obtain ⟨first, hpairs, hfirst⟩ : ∃ first, recordPairs math info =
      first ++ (bytes "verdict", verdictText info.fields.verdict) ::
        [(bytes "clause", info.fields.clause)] ∧
      first = (bytes "calibrationPerformed", flagChars info.fields.performed) ::
        (bytes "offsetApplied", flagChars info.offsetApplied) ::
        (bytes "channel", (intConv 32).toChars info.channel) ::
        (bytes "startBlockIndex", (uintConv 64).toChars info.startBlockIndex) ::
        (bytes "endBlockIndex", (uintConv 64).toChars info.endBlockIndex) ::
        (checkPairs math info.fields ++
          [(bytes "driftDb", math.double.toChars info.fields.driftDb)]) := by
    refine ⟨_, ?_, rfl⟩
    rw [recordPairs, if_neg (by simp [hperformed]), if_pos hrefusal]
    simp
  have hnone : foundIn math info n (bytes "refusalReason") = none := by
    refine foundIn_of_notMem ?_ n
    rw [hpairs, hfirst]
    simp [checkPairs]
  have hseen := @foundIn_eq D math info n (bytes "verdict", verdictText info.fields.verdict)
    (by rw [hpairs]; simp)
  dsimp only at hseen
  set start := LineFormat.valueStart commentMark (recordPairs math info) (bytes "verdict")
  have hread : (readBack math (foundIn math info n)).fields.verdict = info.fields.verdict ↔
      start + (if info.fields.verdict = some .pass then 4 else 0) ≤ n := by
    rw [readBack]
    dsimp only
    rw [hseen, foundAt]
    by_cases hshort : n < start
    · rw [if_pos hshort, hverdict]
      refine iff_of_false ?_ (by omega)
      simp
    · rw [if_neg hshort, Option.map_some, hverdict]
      cases v with
      | pass =>
        have hlength : (bytes "pass").length = 4 := by decide
        rw [verdictText, if_pos rfl, if_pos rfl, Option.some_inj,
          readWord_eq_iff (by simp), hlength]
        omega
      | fail =>
        have htext : verdictText (some .fail) = bytes "fail" := if_neg (by simp)
        have hother : ¬ bytes "pass" <+: bytes "fail" := by decide
        rw [htext, readWord_of_not_prefix hother, if_neg (by simp)]
        exact iff_of_true rfl (by omega)
  rw [← hread]
  constructor
  · intro h
    exact ((h.2 hperformed).2.2.2.2 hrefusal).2.2.2.2
  · intro h
    have hreached := hread.mp h
    have hwhole := @foundIn_of_reached D math info _ _ _ _ hpairs n (by omega)
    rw [hfirst, checkPairs] at hwhole
    simp only [List.cons_append, List.nil_append, List.forall_mem_cons] at hwhole
    obtain ⟨-, happlied, hchannel, hstartBlock, hendBlock, hsm, hsn, hso, hst, hem, hen, heo, het,
      hdrift, -⟩ := hwhole
    refine ⟨hperformed.symm, fun _ => ⟨?_, ?_, checkAt_whole hsm hsn hso hst,
      checkAt_whole hem hen heo het, fun _ => ⟨?_, ?_, ?_, ?_, h⟩⟩⟩
    · change flagAt (foundIn math info n (bytes "offsetApplied")) true = _
      rw [happlied, flagAt_whole]
    · change (foundIn math info n (bytes "refusalReason")).elim _ _ = _
      rw [hnone, hrefusal]
      rfl
    · change numberAt (intConv 32) (foundIn math info n (bytes "channel")) 0 = _
      rw [hchannel, numberAt_whole]
    · change numberAt (uintConv 64) (foundIn math info n (bytes "startBlockIndex")) 0 = _
      rw [hstartBlock, numberAt_whole]
    · change numberAt (uintConv 64) (foundIn math info n (bytes "endBlockIndex")) 0 = _
      rw [hendBlock, numberAt_whole]
    · change numberAt math.double (foundIn math info n (bytes "driftDb")) math.zero = _
      rw [hdrift, numberAt_whole]

/-- A calibration that is refused, cut at `n`. -/
theorem carried_refused_iff (hshort : Shortest math.double)
    (hperformed : info.fields.performed = true) (hrefusal : info.refusal ≠ .none) (n : ℕ)
    (clause : Bytes) :
    let start := LineFormat.valueStart commentMark (recordPairs math info)
    Carried info { readBack math (foundIn math info n) with fields.clause := clause } ↔
      start (bytes "refusalReason") + (if info.refusal = .channelMismatch then 15 else 0) ≤ n ∧
        CheckUnharmed math info.fields.start start n (bytes "startMeasuredLevelDb")
          (bytes "startNominalLevelDb") (bytes "startOperatorSupplied") (bytes "startUnixMs") ∧
        CheckUnharmed math info.fields.finish start n (bytes "endMeasuredLevelDb")
          (bytes "endNominalLevelDb") (bytes "endOperatorSupplied") (bytes "endUnixMs") := by
  intro start
  have hpairs : recordPairs math info =
      [(bytes "calibrationPerformed", flagChars info.fields.performed),
        (bytes "offsetApplied", flagChars info.offsetApplied)] ++
        (bytes "refusalReason", refusalText info.refusal) ::
          (checkPairs math info.fields ++ [(bytes "clause", info.fields.clause)]) := by
    rw [recordPairs, if_neg (by simp [hperformed]), if_neg hrefusal]
    rfl
  have hseen : ∀ kv ∈ recordPairs math info,
      foundIn math info n kv.1 = foundAt kv.2 (start kv.1) n := foundIn_eq info n
  have hreason : foundIn math info n (bytes "refusalReason") =
      foundAt (refusalText info.refusal) (start (bytes "refusalReason")) n :=
    hseen (bytes "refusalReason", refusalText info.refusal) (by rw [hpairs]; simp)
  have hread : (readBack math (foundIn math info n)).refusal = info.refusal ↔
      start (bytes "refusalReason") + (if info.refusal = .channelMismatch then 15 else 0) ≤ n := by
    rw [readBack]
    dsimp only
    rw [hreason, foundAt]
    by_cases hbefore : n < start (bytes "refusalReason")
    · rw [if_pos hbefore]
      exact iff_of_false (Ne.symm hrefusal) (by omega)
    · rw [if_neg hbefore, Option.elim_some]
      cases hcase : info.refusal with
      | none => exact absurd hcase hrefusal
      | channelMismatch =>
        have hlength : (bytes "channelMismatch").length = 15 := by decide
        rw [refusalText, if_pos rfl, if_pos rfl, readWord_eq_iff (by simp), hlength]
        omega
      | noMeasurementChannel =>
        have htext : refusalText .noMeasurementChannel = bytes "noMeasurementChannel" :=
          if_neg (by simp)
        have hother : ¬ bytes "channelMismatch" <+: bytes "noMeasurementChannel" := by decide
        rw [htext, readWord_of_not_prefix hother, if_neg (by simp)]
        exact iff_of_true rfl (by omega)
  have hchecks : ∀ kv ∈ checkPairs math info.fields,
      foundIn math info n kv.1 = foundAt kv.2 (start kv.1) n := by
    intro kv hkv
    refine hseen kv ?_
    rw [hpairs]
    simp [hkv]
  rw [checkPairs] at hchecks
  simp only [List.forall_mem_cons] at hchecks
  obtain ⟨hsm, hsn, hso, hst, hem, hen, heo, het, -⟩ := hchecks
  rw [← hread, ← checkCarried_iff hshort hsm hsn hso hst, ← checkCarried_iff hshort hem hen heo het]
  constructor
  · intro h
    obtain ⟨-, hreason, hstart, hend, -⟩ := h.2 hperformed
    exact ⟨hreason, hstart, hend⟩
  · rintro ⟨hsame, hstart, hend⟩
    have hreached := hread.mp hsame
    have hwhole := @foundIn_of_reached D math info _ _ _ _ hpairs n
      (le_trans (Nat.le_add_right _ _) hreached)
    have happlied := hwhole (bytes "offsetApplied", flagChars info.offsetApplied) (by simp)
    refine ⟨hperformed.symm, fun _ => ⟨?_, hsame, hstart, hend, fun hnone =>
      absurd hnone hrefusal⟩⟩
    change flagAt (foundIn math info n (bytes "offsetApplied")) true = _
    rw [happlied, flagAt_whole]

theorem parse_cut_iff (hshort : Shortest math.double) {session : CalibrationSession D}
    (hfields : info.fields = session.reportFields math) {p : Bytes}
    (hp : p <+: calibrationRecordText math info) :
    (∀ read, parseCalibrationRecord math p = some read → Carried info read) ↔
      TornSafely math info p.length := by
  have hclause : info.fields.clause = CalibrationSession.kClause := by
    rw [hfields, CalibrationSession.clause_reportFields]
  rw [parse_cut hclause hp, TornSafely]
  by_cases hnone : p.length ≤
      LineFormat.valueStart commentMark (recordPairs math info) (bytes "calibrationPerformed")
  · rw [if_pos hnone]
    exact iff_of_true (fun _ hread => nomatch hread) (.inr (.inl hnone))
  rw [if_neg hnone]
  cases hperformed : info.fields.performed with
  | false =>
    refine iff_of_true ?_ (.inl rfl)
    intro read hread
    obtain rfl := Option.some.inj hread
    exact ⟨hperformed.symm, fun htrue => absurd (hperformed.symm.trans htrue) (by simp)⟩
  | true =>
    obtain ⟨v, hverdict⟩ := session.verdict_reportFields math (hfields ▸ hperformed)
    rw [← hfields] at hverdict
    rw [if_pos rfl, or_iff_right (by simp), or_iff_right hnone]
    simp only [Option.some.injEq, forall_eq']
    by_cases hrefusal : info.refusal = .none
    · rw [if_pos hrefusal]
      exact carried_reported_iff hperformed hrefusal hverdict _ _
    · rw [if_neg hrefusal]
      exact carried_refused_iff hshort hperformed hrefusal _ _

theorem valueStart_add_lt_length (hclause : info.fields.clause = CalibrationSession.kClause) :
    ∀ kv ∈ recordPairs math info,
      LineFormat.valueStart commentMark (recordPairs math info) kv.1 + kv.2.length <
        (calibrationRecordText math info).length := by
  intro kv hkv
  rw [calibrationRecordText_eq, LineFormat.length_text (plainPair_recordPairs hclause) (by decide)]
  exact LineFormat.valueStart_add_lt commentMark
    (LineFormat.lookup_of_mem (map_fst_recordPairs info) hkv)

theorem tornSafely_length (hclause : info.fields.clause = CalibrationSession.kClause) :
    TornSafely math info (calibrationRecordText math info).length := by
  have hinside := @valueStart_add_lt_length D math info hclause
  rw [TornSafely]
  cases hperformed : info.fields.performed with
  | false => exact .inl rfl
  | true =>
    refine .inr (.inr ?_)
    by_cases hrefusal : info.refusal = .none
    · rw [if_pos hrefusal]
      have hverdict := hinside (bytes "verdict", verdictText info.fields.verdict) (by
        rw [recordPairs, if_neg (by simp [hperformed]), if_pos hrefusal]
        simp)
      have hlength : (verdictText info.fields.verdict).length = 4 := by
        rw [verdictText]
        split_ifs <;> decide
      dsimp only at hverdict
      rw [hlength] at hverdict
      split_ifs <;> omega
    · rw [if_neg hrefusal]
      have hpairs : ∀ kv, kv ∈ (bytes "refusalReason", refusalText info.refusal) ::
          checkPairs math info.fields → kv ∈ recordPairs math info := by
        intro kv hkv
        rw [recordPairs, if_neg (by simp [hperformed]), if_neg hrefusal]
        exact List.mem_cons_of_mem _ (List.mem_cons_of_mem _ (List.mem_append_left _ hkv))
      have hreached : ∀ kv ∈ (bytes "refusalReason", refusalText info.refusal) ::
          checkPairs math info.fields,
          LineFormat.valueStart commentMark (recordPairs math info) kv.1 + kv.2.length ≤
            (calibrationRecordText math info).length := fun kv hkv =>
        (hinside kv (hpairs kv hkv)).le
      rw [checkPairs] at hreached
      simp only [List.forall_mem_cons] at hreached
      obtain ⟨hreason, hsm, hsn, hso, hst, hem, hen, heo, het, -⟩ := hreached
      have hflag : ∀ flag, (flagChars flag).length = 1 := by
        intro flag
        rw [flagChars_eq]
        cases flag <;> decide
      rw [hflag] at hso heo
      refine ⟨?_, ⟨.inl hsm, .inl hsn, .inl hso, .inl hst⟩, .inl hem, .inl hen, .inl heo, .inl het⟩
      refine le_trans (Nat.add_le_add_left ?_ _) hreason
      rw [refusalText]
      split_ifs <;> decide

/-- **Headline.** The full text is read as what it carries, and a prefix is either nothing or read
so exactly where the cut does no harm. -/
theorem parse_prefix_iff (math : CalibrationMath D) (hshort : Shortest math.double)
    (session : CalibrationSession D) (info : RecordInfo D)
    (hfields : info.fields = session.reportFields math) :
    (∃ read, parseCalibrationRecord math (calibrationRecordText math info) = some read ∧
      Carried info read) ∧
    ∀ p, p <+: calibrationRecordText math info →
      ((∀ read, parseCalibrationRecord math p = some read → Carried info read) ↔
        TornSafely math info p.length) := by
  have hclause : info.fields.clause = CalibrationSession.kClause := by
    rw [hfields, CalibrationSession.clause_reportFields]
  refine ⟨?_, fun p hp => parse_cut_iff hshort hfields hp⟩
  have hfirst := @valueStart_add_lt_length D math info hclause
    (bytes "calibrationPerformed", flagChars info.fields.performed) List.mem_cons_self
  dsimp only at hfirst
  obtain ⟨read, hread⟩ : ∃ read,
      parseCalibrationRecord math (calibrationRecordText math info) = some read := by
    rw [parse_cut hclause List.prefix_rfl, if_neg (by omega)]
    split_ifs <;> exact ⟨_, rfl⟩
  exact ⟨read, hread,
    (parse_cut_iff hshort hfields List.prefix_rfl).mpr (tornSafely_length hclause) read hread⟩

/-- Doubles that are whole numbers of decibels. -/
def wholeDecibels : CalibrationMath ℤ where
  double := decimalConv
  zero := 0
  kIec60942Level94Db := 94
  kMaxDriftDb := 0
  sub := Int.sub
  abs x := x.natAbs
  le x y := decide (x ≤ y)

theorem shortest_wholeDecibels : Shortest wholeDecibels.double := fun _ _ _ hp hread =>
  eq_decimalInt_of_readDecimalInt hp hread

/-- A session with 93 dB before and after. -/
def steadySession : CalibrationSession ℤ where
  startCheck := some { level := { nominalDb := 94 }, measuredLevelDb := 93, offsetDb := 1 }
  endCheck := some { level := { nominalDb := 94 }, measuredLevelDb := 93, offsetDb := 1 }

/-- Its record, on channel 3. -/
def steadyRecord : RecordInfo ℤ where
  fields := steadySession.reportFields wholeDecibels
  channel := ⟨3, by decide⟩

theorem parse_prefix_iff_steady :
    (∃ read, parseCalibrationRecord wholeDecibels
        (calibrationRecordText wholeDecibels steadyRecord) = some read ∧
      Carried steadyRecord read) ∧
    ∀ p, p <+: calibrationRecordText wholeDecibels steadyRecord →
      ((∀ read, parseCalibrationRecord wholeDecibels p = some read → Carried steadyRecord read) ↔
        TornSafely wholeDecibels steadyRecord p.length) :=
  parse_prefix_iff wholeDecibels shortest_wholeDecibels steadySession steadyRecord rfl

/-- Cut after its first line, the record is read as a performed calibration of channel 0. -/
theorem parse_prefix_trusted :
    ¬ ∀ (math : CalibrationMath ℤ), Shortest math.double →
      ∀ (session : CalibrationSession ℤ) (info : RecordInfo ℤ),
      info.fields = session.reportFields math → ∀ p, p <+: calibrationRecordText math info →
        ∀ read, parseCalibrationRecord math p = some read → Carried info read := by
  intro h
  have hprefix : bytes "# calibrationPerformed=1\n" <+:
      calibrationRecordText wholeDecibels steadyRecord := by decide
  have hread : parseCalibrationRecord wholeDecibels (bytes "# calibrationPerformed=1\n") =
      some { fields := { defaultFields wholeDecibels with
        performed := true, clause := CalibrationSession.kClause } } := by rfl
  have hcarried := h wholeDecibels shortest_wholeDecibels steadySession steadyRecord rfl _ hprefix
    _ hread
  obtain ⟨-, -, -, -, hreported⟩ := hcarried.2 rfl
  exact absurd (congrArg CInt.val (hreported rfl).1) (by decide)

end SplCalibrationRecord

end RtaTool
