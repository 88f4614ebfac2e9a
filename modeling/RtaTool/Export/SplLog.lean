import RtaTool.Lib.LineLog
import RtaTool.Measure.SplMeter
import RtaTool.Trace.SessionCodec

/-!
# The sound level log

`SplLog.h`: a header of `# key=value` lines, one line of column names and one row of nine numbers
for every block. The file is appended to for hours and nothing makes an append atomic, so the
reader takes whatever is there.

Doubles and floats are two types of their own with whatever bit patterns they have, written and read
by `std::to_chars` and `std::from_chars`; what the log relies on is in `LogNumbers`. The unsigned
integers are decimal numbers and are written out here. The level column is computed from the energy
and read back only to be checked for being a number.

A cut inside a number leaves a shorter number that is just as well formed. It is the newline that
makes a row, so the cut row is thrown away all the same (`readLog_cut`).

## Main definitions

* `logHeader`, `csvHeaderRow`, `logRow`, `logText`
* `parseRow`, `readLog`
* `rowEnds` -- where each row ends

## Main results

* `parseRow_logRow` -- a row is read back
* `readLog_cut` -- **Headline.** Every prefix of a log is read as its whole rows
-/

namespace RtaTool

/-! ### Unsigned integers as text -/

/-- `std::to_chars` and `std::from_chars` for an unsigned type: a value that does not fit is
refused. -/
def uintConv (bits : ℕ) : CharConv (Fin (2 ^ bits)) where
  toChars x := decimal x
  fromChars v :=
    (readDecimal v).bind fun r => if h : r.1 < 2 ^ bits then some (⟨r.1, h⟩, r.2) else none
  fromChars_toChars x := by
    have h := readDecimal_decimal x []
    rw [List.append_nil] at h
    rw [h (by simp), Option.bind_some, dif_pos x.isLt]
  toChars_ne_nil x := decimal_ne_nil x
  toChars_plain x c hc := isDigit_plain (isDigit_of_mem_decimal hc)

/-- A natural number in an unsigned type. -/
def toUint (bits n : ℕ) : Fin (2 ^ bits) := ⟨n % 2 ^ bits, Nat.mod_lt _ (Nat.two_pow_pos bits)⟩

theorem val_toUint {bits n : ℕ} (h : n < 2 ^ bits) : (toUint bits n).val = n := Nat.mod_eq_of_lt h

/-- The byte `','`. -/
def comma : UInt8 := 44

/-- What the log needs of floating point: its numbers as text, and the level of a mean square. -/
structure LogNumbers (D F : Type) where
  double : CharConv D
  float : CharConv F
  double_no_comma : ∀ x, comma ∉ double.toChars x
  float_no_comma : ∀ x, comma ∉ float.toChars x
  /-- `10.0 * std::log10(sumSquares / blockSamples) + referenceOffsetDb`. -/
  levelDb : D → ℕ → D → D
  levelFloorDb : D

/-! ### The header -/

/-- `rta::dsp::toString`. -/
def WeightingType.toText : WeightingType → Bytes
  | .A => bytes "A"
  | .C => bytes "C"
  | .Z => bytes "Z"

/-- `rta::meter::toString`. -/
def TimeWeighting.toText : TimeWeighting → Bytes
  | .fast => bytes "Fast"
  | .slow => bytes "Slow"
  | .impulse => bytes "Impulse"

/-- What a log reads of `SplConfig`. -/
structure SplLogConfig (D : Type) where
  referenceOffsetDb : D
  calibrated : Bool
  histogramBaseDb : D
  segmentBlocks : ℕ

/-- `SplLogHeaderInfo`. -/
structure SplLogHeaderInfo (D : Type) where
  weighting : WeightingType := .A
  detector : TimeWeighting := .fast
  blockSamples : ℕ := 0
  sampleRate : D
  startedAtUnixMs : ℕ := 0
  calibratorLevelDb : Option D := none

variable {D F : Type} (nums : LogNumbers D F)

/-- What a comment line of the header starts with. -/
def commentMark : Bytes := bytes "# "

/-- The keys and values of `logHeader`, in order. -/
def headerPairs (config : SplLogConfig D) (info : SplLogHeaderInfo D) : List (String × Bytes) :=
  [("schema", (uintConv 64).toChars (toUint 64 1)),
    ("startedAtUnixMs", (uintConv 64).toChars (toUint 64 info.startedAtUnixMs)),
    ("sampleRate", nums.double.toChars info.sampleRate),
    ("blockSamples", (uintConv 32).toChars (toUint 32 info.blockSamples)),
    ("weighting", info.weighting.toText),
    ("detector", info.detector.toText),
    ("calibrationOffsetDb", nums.double.toChars config.referenceOffsetDb),
    ("calibrationUnit", if config.calibrated then bytes "dbspl" else bytes "dbfs")] ++
    (info.calibratorLevelDb.toList.map fun level =>
      ("calibratorLevelDb", nums.double.toChars level)) ++
    [("histogramBaseDb", nums.double.toChars config.histogramBaseDb)]

/-- `logHeader(config, info)`. -/
def logHeader (config : SplLogConfig D) (info : SplLogHeaderInfo D) : Bytes :=
  (headerPairs nums config info).flatMap fun kv => commentMark ++ writeLine kv.1 kv.2

/-- `csvHeaderRow()`. -/
def csvHeaderRow : Bytes :=
  [comma].intercalate ([bytes "blockIndex", bytes "blockSamples", bytes "droppedSamples",
    bytes "sumSquares", bytes "leqDb", bytes "maxFastDb", bytes "maxSlowDb", bytes "peakCDb",
    bytes "flags"])

/-! ### Rows -/

/-- The nine fields of a block's row. -/
def rowFields (block : Block D F) (referenceOffsetDb : D) : List Bytes :=
  [(uintConv 64).toChars (toUint 64 block.blockIndex),
    (uintConv 32).toChars (toUint 32 block.blockSamples),
    (uintConv 32).toChars (toUint 32 block.droppedSamples),
    nums.double.toChars block.sumSquares,
    nums.double.toChars
      (if 0 < block.blockSamples then
        nums.levelDb block.sumSquares block.blockSamples referenceOffsetDb
      else nums.levelFloorDb),
    nums.float.toChars block.maxFastDb,
    nums.float.toChars block.maxSlowDb,
    nums.float.toChars block.peakDb,
    (uintConv 32).toChars (toUint 32 block.flags.toNat)]

/-- A row without its newline. -/
def rowLine (block : Block D F) (referenceOffsetDb : D) : Bytes :=
  [comma].intercalate (rowFields nums block referenceOffsetDb)

/-- `logRow(block, referenceOffsetDb)`. -/
def logRow (block : Block D F) (referenceOffsetDb : D) : Bytes :=
  rowLine nums block referenceOffsetDb ++ [sessionFormat.newline]

/-- A whole log: header, column names and rows. -/
def logText (config : SplLogConfig D) (info : SplLogHeaderInfo D) (blocks : List (Block D F)) :
    Bytes :=
  logHeader nums config info ++ (csvHeaderRow ++ [sessionFormat.newline]) ++
    blocks.flatMap fun b => logRow nums b config.referenceOffsetDb

/-! ### Reading -/

/-- `detail::parseRow(line)`: exactly nine fields, each a number to its end. -/
def parseRow (line : Bytes) : Option (Block D F) :=
  match (sessionFormat.stripTrailingCr line).splitOn comma with
  | [blockIndex, blockSamples, droppedSamples, sumSquares, leqDb, maxFastDb, maxSlowDb, peakDb,
      flags] => do
    let blockIndex ← (uintConv 64).tryParse blockIndex
    let blockSamples ← (uintConv 32).tryParse blockSamples
    let droppedSamples ← (uintConv 32).tryParse droppedSamples
    let sumSquares ← nums.double.tryParse sumSquares
    let _ ← nums.double.tryParse leqDb
    let maxFastDb ← nums.float.tryParse maxFastDb
    let maxSlowDb ← nums.float.tryParse maxSlowDb
    let peakDb ← nums.float.tryParse peakDb
    let flags ← (uintConv 32).tryParse flags
    return { blockIndex := blockIndex, blockSamples := blockSamples
             droppedSamples := droppedSamples, sumSquares := sumSquares, maxFastDb := maxFastDb
             maxSlowDb := maxSlowDb, peakDb := peakDb, flags := UInt32.ofNat flags }
  | _ => none

/-- What `readLog` makes of a line: the header and the column names are not data. -/
def judgeLine (line : Bytes) : LineVerdict (Block D F) :=
  let content := sessionFormat.stripTrailingCr line
  if commentMark.isPrefixOf content ∨ content = csvHeaderRow then .skip
  else
    match parseRow nums line with
    | some block => .entry block
    | none => .reject

/-- `readLog(csvBody)`. -/
def readLog (csvBody : Bytes) : LineReading (Block D F) :=
  readLines sessionFormat.newline (judgeLine nums) csvBody

/-- The counts of a block are within their C++ types. -/
def Block.Fits (b : Block D F) : Prop :=
  b.blockIndex < 2 ^ 64 ∧ b.blockSamples < 2 ^ 32 ∧ b.droppedSamples < 2 ^ 32

instance (b : Block D F) : Decidable b.Fits := inferInstanceAs (Decidable (_ ∧ _ ∧ _))

/-! ### A row is read back -/

variable {nums}

/-- A character that a field may hold. -/
def FieldChar (c : UInt8) : Prop :=
  c ≠ comma ∧ c ≠ sessionFormat.newline ∧ c ≠ sessionFormat.carriageReturn

theorem fieldChar_uint {bits : ℕ} (x : Fin (2 ^ bits)) {c : UInt8}
    (hc : c ∈ (uintConv bits).toChars x) : FieldChar c := by
  have hdigit := isDigit_of_mem_decimal hc
  refine ⟨?_, (isDigit_plain hdigit).2⟩
  rintro rfl
  cases hdigit

theorem fieldChar_conv {α : Type} {conv : CharConv α} (h : ∀ x, comma ∉ conv.toChars x) (x : α)
    {c : UInt8} (hc : c ∈ conv.toChars x) : FieldChar c :=
  ⟨fun heq => h x (heq ▸ hc), (conv.toChars_plain x c hc).2⟩

variable {b : Block D F} {info : SplLogHeaderInfo D} {config : SplLogConfig D}

theorem fieldChar_rowFields {off : D} :
    ∀ field ∈ rowFields nums b off, ∀ c ∈ field, FieldChar c := by
  have hu := @fieldChar_uint
  have hd := fun x c => @fieldChar_conv D nums.double nums.double_no_comma x c
  have hf := fun x c => @fieldChar_conv F nums.float nums.float_no_comma x c
  simp only [rowFields, List.forall_mem_cons, List.not_mem_nil, false_imp_iff, implies_true, and_true]
  exact ⟨fun c => hu _, fun c => hu _, fun c => hu _, hd _, hd _, hf _, hf _, hf _, fun c => hu _⟩

theorem mem_intercalate {c d : UInt8} {fields : List Bytes} (h : c ∈ [d].intercalate fields) :
    c = d ∨ ∃ field ∈ fields, c ∈ field := by
  induction fields with
  | nil => cases h
  | cons field fields ih =>
    cases fields with
    | nil =>
      rw [List.intercalate_singleton] at h
      exact .inr ⟨field, List.mem_singleton_self _, h⟩
    | cons next fields =>
      rw [List.intercalate_cons_cons, List.mem_append, List.mem_append, List.mem_singleton] at h
      rcases h with (h | h) | h
      · exact .inr ⟨field, List.mem_cons_self, h⟩
      · exact .inl h
      · exact (ih h).imp_right fun ⟨f, hf, hc⟩ => ⟨f, List.mem_cons_of_mem _ hf, hc⟩

theorem mem_rowLine {off : D} {c : UInt8} (h : c ∈ rowLine nums b off) :
    c ≠ sessionFormat.newline ∧ c ≠ sessionFormat.carriageReturn := by
  rcases mem_intercalate h with rfl | ⟨field, hfield, hc⟩
  · decide
  · exact (fieldChar_rowFields field hfield c hc).2

theorem stripTrailingCr_rowLine (b : Block D F) (off : D) :
    sessionFormat.stripTrailingCr (rowLine nums b off) = rowLine nums b off :=
  sessionFormat.stripTrailingCr_eq_self_iff.mpr fun h =>
    (mem_rowLine (List.mem_of_getLast? h)).2 rfl

theorem splitOn_rowLine (b : Block D F) (off : D) :
    (rowLine nums b off).splitOn comma = rowFields nums b off :=
  List.splitOn_intercalate comma
    (fun field hfield hc => (fieldChar_rowFields field hfield comma hc).1 rfl)
    (List.cons_ne_nil _ _)

/-- Every field of a row is read back whole. -/
theorem parseRow_rowLine (h : b.Fits) (off : D) :
    parseRow nums (rowLine nums b off) = some b := by
  obtain ⟨hi, hs, hd⟩ := h
  rw [parseRow, stripTrailingCr_rowLine, splitOn_rowLine, rowFields]
  simp only [tryParse_toChars, Option.bind_eq_bind, Option.bind_some, val_toUint hi, val_toUint hs,
    val_toUint hd, val_toUint b.flags.toNat_lt, UInt32.ofNat_toNat]
  rfl

theorem rowLine_eq_cons (b : Block D F) (off : D) :
    ∃ c rest, isDigit c = true ∧ rowLine nums b off = c :: rest := by
  obtain ⟨c, digits, hdigits⟩ :=
    List.exists_cons_of_ne_nil (decimal_ne_nil (toUint 64 b.blockIndex).val)
  have hc : isDigit c = true := isDigit_of_mem_decimal (hdigits ▸ List.mem_cons_self)
  obtain ⟨tail, htail⟩ : ∃ tail,
      rowLine nums b off = decimal (toUint 64 b.blockIndex).val ++ tail := by
    rw [rowLine, rowFields, List.intercalate_cons_cons, List.append_assoc]
    exact ⟨_, rfl⟩
  exact ⟨c, digits ++ tail, hc, by rw [htail, hdigits]; rfl⟩

theorem judgeLine_rowLine (h : b.Fits) (off : D) :
    judgeLine nums (rowLine nums b off) = .entry b := by
  obtain ⟨c, rest, hc, hrow⟩ := @rowLine_eq_cons D F nums b off
  have hskip : ¬ (commentMark.isPrefixOf (rowLine nums b off) ∨
      rowLine nums b off = csvHeaderRow) := by
    rw [hrow]
    rintro (hp | heq)
    · obtain ⟨t, ht⟩ := List.isPrefixOf_iff_prefix.mp hp
      rw [show commentMark = [35, 32] by decide] at ht
      cases ht
      cases hc
    · obtain ⟨t, ht⟩ : ∃ t, csvHeaderRow = 98 :: t := ⟨_, rfl⟩
      rw [ht] at heq
      cases heq
      cases hc
  rw [judgeLine, stripTrailingCr_rowLine, if_neg hskip, parseRow_rowLine h]

/-! ### The header is skipped -/

/-- A header line without its newline. -/
def headerLine (kv : String × Bytes) : Bytes :=
  commentMark ++ sessionFormat.keyLine (bytes kv.1) kv.2

/-- The keys a header can have. -/
def headerKeys : List String :=
  ["schema", "startedAtUnixMs", "sampleRate", "blockSamples", "weighting", "detector",
    "calibrationOffsetDb", "calibrationUnit", "calibratorLevelDb", "histogramBaseDb"]

theorem key_mem_headerKeys :
    ∀ kv ∈ headerPairs nums config info, kv.1 ∈ headerKeys := by
  intro kv hkv
  rw [headerPairs] at hkv
  simp only [List.mem_append, List.mem_cons, List.not_mem_nil, or_false, List.mem_map] at hkv
  rcases hkv with (hkv | ⟨level, -, rfl⟩) | rfl
  · rcases hkv with rfl | rfl | rfl | rfl | rfl | rfl | rfl | rfl <;> simp [headerKeys]
  · simp [headerKeys]
  · simp [headerKeys]

theorem newline_notMem_headerLine :
    ∀ kv ∈ headerPairs nums config info, sessionFormat.newline ∉ headerLine kv := by
  intro kv hkv
  have hkey : ∀ key ∈ headerKeys, sessionFormat.newline ∉ bytes key := by decide
  rw [headerLine, List.mem_append, not_or]
  exact ⟨by decide,
    sessionFormat.newline_notMem_keyLine (hkey _ (key_mem_headerKeys kv hkv)) kv.2⟩

theorem judgeLine_headerLine (kv : String × Bytes) :
    judgeLine nums (headerLine kv) = .skip := by
  have hne : sessionFormat.keyLine (bytes kv.1) kv.2 ≠ [] :=
    List.ne_nil_of_mem (sessionFormat.assign_mem_keyLine _ _)
  rw [judgeLine, headerLine, sessionFormat.stripTrailingCr_append hne]
  exact if_pos (.inl (List.isPrefixOf_iff_prefix.mpr (List.prefix_append _ _)))

theorem judgeLine_csvHeaderRow : judgeLine nums csvHeaderRow = .skip := by
  rw [judgeLine]
  exact if_pos (.inr (by decide))

/-! ### Logs cut anywhere -/

variable (nums)

/-- The lines of a log. -/
def logLines (config : SplLogConfig D) (info : SplLogHeaderInfo D) (blocks : List (Block D F)) :
    List Bytes :=
  (headerPairs nums config info).map headerLine ++
    (csvHeaderRow :: blocks.map fun b => rowLine nums b config.referenceOffsetDb)

section

variable (config : SplLogConfig D) (info : SplLogHeaderInfo D)

theorem logText_eq_joinLines (blocks : List (Block D F)) :
    logText nums config info blocks =
      joinLines sessionFormat.newline (logLines nums config info blocks) := by
  have hheader : logHeader nums config info =
      (headerPairs nums config info).flatMap fun kv => headerLine kv ++ [sessionFormat.newline] :=
    rfl
  rw [logText, logLines, joinLines, List.flatMap_append, List.flatMap_cons, List.flatMap_map,
    List.flatMap_map, List.append_assoc, hheader]
  rfl

variable {blocks : List (Block D F)}

theorem cleanLine_logLines (hfits : ∀ b ∈ blocks, b.Fits) :
    ∀ line ∈ logLines nums config info blocks,
      CleanLine sessionFormat.newline (judgeLine nums) line := by
  intro line hline
  rw [logLines, List.mem_append, List.mem_cons, List.mem_map, List.mem_map] at hline
  obtain ⟨kv, hkv, rfl⟩ | rfl | ⟨b, hb, rfl⟩ := hline
  · exact ⟨newline_notMem_headerLine kv hkv, by rw [judgeLine_headerLine]; rintro ⟨⟩⟩
  · exact ⟨by decide, by rw [judgeLine_csvHeaderRow]; rintro ⟨⟩⟩
  · exact ⟨fun h => (mem_rowLine h).1 rfl, by rw [judgeLine_rowLine (hfits b hb)]; rintro ⟨⟩⟩

/-- The blocks of rows that start at `start`, each with the place its row ends. -/
def rowEnds (off : D) (start : ℕ) : List (Block D F) → List (Block D F × ℕ)
  | [] => []
  | b :: blocks =>
    (b, start + (logRow nums b off).length) ::
      rowEnds off (start + (logRow nums b off).length) blocks

/-- The length of the header and the column names. -/
def headerLength (config : SplLogConfig D) (info : SplLogHeaderInfo D) : ℕ :=
  (logHeader nums config info ++ (csvHeaderRow ++ [sessionFormat.newline])).length

theorem lineEnds_append (start : ℕ) (lines lines' : List Bytes) :
    lineEnds start (lines ++ lines') = lineEnds start lines ++
      lineEnds (start + (joinLines sessionFormat.newline lines).length) lines' := by
  induction lines generalizing start with
  | nil => rfl
  | cons line lines ih =>
    have hlen : (joinLines sessionFormat.newline (line :: lines)).length =
        (line.length + 1) + (joinLines sessionFormat.newline lines).length := by
      rw [joinLines, List.flatMap_cons, List.length_append, List.length_append,
        List.length_singleton]
      rfl
    rw [List.cons_append, lineEnds, lineEnds, ih, hlen, Nat.add_assoc start]
    rfl

theorem lineEnds_rows (off : D) (start : ℕ) (hfits : ∀ b ∈ blocks, b.Fits) (n : ℕ) :
    ((lineEnds start (blocks.map fun b => rowLine nums b off)).filter (·.2 ≤ n)).filterMap
        (fun e => (judgeLine nums e.1).toOption) =
      ((rowEnds nums off start blocks).filter (·.2 ≤ n)).map (·.1) := by
  induction blocks generalizing start with
  | nil => rfl
  | cons b blocks ih =>
    obtain ⟨hb, hblocks⟩ := List.forall_mem_cons.mp hfits
    have hlen : (logRow nums b off).length = (rowLine nums b off).length + 1 := by
      rw [logRow, List.length_append, List.length_singleton]
    rw [List.map_cons, lineEnds, rowEnds, ← hlen, List.filter_cons, List.filter_cons]
    by_cases hle : start + (logRow nums b off).length ≤ n
    · rw [if_pos (by exact decide_eq_true hle), if_pos (by exact decide_eq_true hle),
        List.map_cons, ← ih _ hblocks]
      simp only [List.filterMap_cons, judgeLine_rowLine hb, LineVerdict.toOption]
    · rw [if_neg (by simpa using hle), if_neg (by simpa using hle), ih _ hblocks]

theorem lineEnds_header (n : ℕ) :
    ((lineEnds 0 ((headerPairs nums config info).map headerLine ++ [csvHeaderRow])).filter
      (·.2 ≤ n)).filterMap (fun e => (judgeLine nums e.1).toOption) = [] := by
  refine List.filterMap_eq_nil_iff.mpr fun e he => ?_
  have hmem : e.1 ∈ (headerPairs nums config info).map headerLine ++ [csvHeaderRow] := by
    have hfst : ∀ (start : ℕ) (lines : List Bytes), ∀ e ∈ lineEnds start lines, e.1 ∈ lines := by
      intro start lines
      induction lines generalizing start with
      | nil => exact fun e he => absurd he List.not_mem_nil
      | cons line lines ih =>
        intro e he
        rcases List.mem_cons.mp he with rfl | he
        · exact List.mem_cons_self
        · exact List.mem_cons_of_mem _ (ih _ e he)
    exact hfst 0 _ e (List.mem_of_mem_filter he)
  rw [List.mem_append, List.mem_map, List.mem_singleton] at hmem
  obtain ⟨kv, -, hkv⟩ | hcsv := hmem
  · rw [← hkv, judgeLine_headerLine]
    rfl
  · rw [hcsv, judgeLine_csvHeaderRow]
    rfl

end

/-- **Headline.** A log cut at any byte reads as exactly the blocks whose rows, newline included, lie
inside the cut, in order and equal in every field; what follows the last newline is what is thrown
away. -/
theorem readLog_cut (config : SplLogConfig D) (info : SplLogHeaderInfo D)
    {blocks : List (Block D F)} (hfits : ∀ b ∈ blocks, b.Fits) {p : Bytes}
    (hp : p <+: logText nums config info blocks) :
    readLog nums p =
      ⟨((rowEnds nums config.referenceOffsetDb (headerLength nums config info) blocks).filter
          (·.2 ≤ p.length)).map (·.1),
        (fragment sessionFormat.newline p).length⟩ := by
  rw [logText_eq_joinLines] at hp
  rw [readLog, readLines_cut (cleanLine_logLines nums config info hfits) hp 0]
  refine LineReading.ext ?_ rfl
  have hsplit : logLines nums config info blocks =
      ((headerPairs nums config info).map headerLine ++ [csvHeaderRow]) ++
        blocks.map fun b => rowLine nums b config.referenceOffsetDb := by
    rw [logLines, List.append_assoc]
    rfl
  have hlen : (joinLines sessionFormat.newline
      ((headerPairs nums config info).map headerLine ++ [csvHeaderRow])).length =
      headerLength nums config info := by
    have h := logText_eq_joinLines nums config info ([] : List (Block D F))
    rw [logText, List.flatMap_nil, List.append_nil] at h
    rw [headerLength, h, logLines, List.map_nil]
  rw [hsplit, lineEnds_append, List.filter_append, List.filterMap_append]
  dsimp only
  rw [Nat.zero_add, lineEnds_header, List.nil_append, Nat.zero_add, hlen,
    lineEnds_rows nums _ _ hfits]

/-- Fractions for both floating types, and a level that is the mean square itself. -/
def fractionLog : LogNumbers ℚ ℚ where
  double := fractionConv
  float := fractionConv
  double_no_comma x h := by
    rcases mem_fraction h with h | h | h
    · cases h
    · exact absurd h (by decide)
    · exact absurd h (by decide)
  float_no_comma x h := by
    rcases mem_fraction h with h | h | h
    · cases h
    · exact absurd h (by decide)
    · exact absurd h (by decide)
  levelDb x n off := x / n + off
  levelFloorDb := kLevelFloorDb

/-- An uncalibrated log. -/
def plainLogConfig (segmentBlocks : ℕ) : SplLogConfig ℚ := ⟨0, false, kLevelFloorDb, segmentBlocks⟩

/-- A block with every flag set but one. -/
def flaggedBlock (index : ℕ) : Block where
  blockIndex := index
  blockSamples := 48000
  droppedSamples := 12
  sumSquares := 3 / 8
  maxFastDb := -21 / 2
  maxSlowDb := -12
  peakDb := -1
  flags := 29

/-- The second row is cut after its first two digits: a well-formed number that is thrown away. -/
theorem readLog_flaggedBlock :
    readLog fractionLog ((logText fractionLog (plainLogConfig 1) { sampleRate := 48000 }
        [flaggedBlock 7, flaggedBlock 1234]).take
        ((logText fractionLog (plainLogConfig 1) { sampleRate := 48000 }
          [flaggedBlock 7]).length + 2)) = ⟨[flaggedBlock 7], 2⟩ :=
  (readLog_cut fractionLog (plainLogConfig 1) { sampleRate := 48000 } (by decide)
    (List.take_prefix _ _)).trans (by decide +kernel)

end RtaTool
