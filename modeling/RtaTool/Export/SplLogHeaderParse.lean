import RtaTool.Export.SplLogWriter

/-!
# The header of a log, read back

`SplLogHeaderParse.h`: the inverse of `logHeader`, for a reader that has nothing but the bytes on
disk. It takes one ended line after another as long as they are comments, keeps what it knows, and
asks at the end whether five keys have been seen.

The writer stamps two keys after the last of the five, the unit and the level of the calibrator. A
file that ends between the offset and these is read as a whole header, of an uncalibrated log
without a calibrator. What the reader makes of *every* cut of a file is `parseLogHeader_cut`; from
it the cuts where it is right are exactly those of `parseLogHeader_whole_iff`.

`from_chars` stores the number it finds before it is known whether the whole text was one, so a
refused value still reaches its field: `tryParseInto`.

## Main definitions

* `CharConv.tryParseInto`, `parseWeightingType`, `parseTimeWeighting`
* `SplLogHeaderParsed`, `HeaderScan`, `parseLogHeader`
* `headerWritten`, `headerCut` -- what was stamped, and where each line of it ends

## Main results

* `parseLogHeader_cut` -- **Headline.** The keys read are those whose lines lie wholly inside
* `parseLogHeader_whole_iff` -- when a cut header is all or nothing
-/

namespace RtaTool

/-! ### Reading -/

/-- `tryParse(v, out)` as its caller sees it: whether it succeeded, and what `out` holds then. -/
def CharConv.tryParseInto {α : Type} (conv : CharConv α) (v : Bytes) (out : α) : Bool × α :=
  if v = [] then (false, out)
  else
    match conv.fromChars v with
    | some (x, rest) => (rest.isEmpty, x)
    | none => (false, out)

@[simp] theorem tryParseInto_toChars {α : Type} (conv : CharConv α) (x out : α) :
    conv.tryParseInto (conv.toChars x) out = (true, x) := by
  rw [CharConv.tryParseInto, if_neg (conv.toChars_ne_nil x), conv.fromChars_toChars]
  rfl

/-- `parseWeightingType(s)`. -/
def parseWeightingType (s : Bytes) : Option WeightingType :=
  if s = bytes "A" then some .A
  else if s = bytes "C" then some .C
  else if s = bytes "Z" then some .Z
  else none

/-- `parseTimeWeighting(s)`. -/
def parseTimeWeighting (s : Bytes) : Option TimeWeighting :=
  if s = bytes "Fast" then some .fast
  else if s = bytes "Slow" then some .slow
  else if s = bytes "Impulse" then some .impulse
  else none

@[simp] theorem parseWeightingType_toText (w : WeightingType) :
    parseWeightingType w.toText = some w := by
  revert w
  rintro (_ | _ | _) <;> decide

@[simp] theorem parseTimeWeighting_toText (d : TimeWeighting) :
    parseTimeWeighting d.toText = some d := by
  revert d
  rintro (_ | _ | _) <;> decide

deriving instance DecidableEq for SplLogHeaderInfo

/-- `SplLogHeaderParsed`. -/
structure SplLogHeaderParsed (D : Type) where
  info : SplLogHeaderInfo D
  referenceOffsetDb : D
  calibrated : Bool := false
  deriving DecidableEq

/-- The locals of `parseLogHeader`. -/
structure HeaderScan (D : Type) where
  parsed : SplLogHeaderParsed D
  sawWeighting : Bool := false
  sawDetector : Bool := false
  sawBlockSamples : Bool := false
  sawSampleRate : Bool := false
  sawOffset : Bool := false

namespace HeaderScan

variable {D F : Type} (nums : LogNumbers D F) (zero : D)

/-- The locals before the loop; `zero` is `0.0`. -/
def start : HeaderScan D := ⟨⟨{ sampleRate := zero }, zero, false⟩, false, false, false, false, false⟩

/-- One key and its value. -/
def readKey (s : HeaderScan D) (key value : Bytes) : HeaderScan D :=
  if key = bytes "startedAtUnixMs" then
    let r := (uintConv 64).tryParseInto value (toUint 64 s.parsed.info.startedAtUnixMs)
    { s with parsed.info.startedAtUnixMs := r.2.val }
  else if key = bytes "sampleRate" then
    let r := nums.double.tryParseInto value s.parsed.info.sampleRate
    { s with parsed.info.sampleRate := r.2, sawSampleRate := s.sawSampleRate || r.1 }
  else if key = bytes "blockSamples" then
    let r := (uintConv 32).tryParseInto value (toUint 32 s.parsed.info.blockSamples)
    { s with parsed.info.blockSamples := r.2.val, sawBlockSamples := s.sawBlockSamples || r.1 }
  else if key = bytes "weighting" then
    match parseWeightingType value with
    | some w => { s with parsed.info.weighting := w, sawWeighting := true }
    | none => s
  else if key = bytes "detector" then
    match parseTimeWeighting value with
    | some d => { s with parsed.info.detector := d, sawDetector := true }
    | none => s
  else if key = bytes "calibrationOffsetDb" then
    let r := nums.double.tryParseInto value s.parsed.referenceOffsetDb
    { s with parsed.referenceOffsetDb := r.2, sawOffset := s.sawOffset || r.1 }
  else if key = bytes "calibrationUnit" then
    { s with parsed.calibrated := decide (value = bytes "dbspl") }
  else if key = bytes "calibratorLevelDb" then
    let r := nums.double.tryParseInto value zero
    if r.1 then { s with parsed.info.calibratorLevelDb := some r.2 } else s
  else s

/-- The loop, over the ended lines. A comment without an assignment sign is passed over; anything
that is not a comment ends the header. -/
def readHeaderLines (s : HeaderScan D) : List Bytes → HeaderScan D
  | [] => s
  | rawLine :: lines =>
    let line := sessionFormat.stripTrailingCr rawLine
    if commentMark.isPrefixOf line then
      match sessionFormat.splitLine (line.drop 2) with
      | some (key, value) => (s.readKey nums zero key value).readHeaderLines lines
      | none => s.readHeaderLines lines
    else s

/-- The five keys have been seen. -/
def finish (s : HeaderScan D) : Option (SplLogHeaderParsed D) :=
  if !s.sawWeighting || !s.sawDetector || !s.sawBlockSamples || !s.sawSampleRate || !s.sawOffset then
    none
  else some s.parsed

end HeaderScan

/-- `parseLogHeader(csvBody)`. -/
def parseLogHeader {D F : Type} (nums : LogNumbers D F) (zero : D) (csvBody : Bytes) :
    Option (SplLogHeaderParsed D) :=
  ((HeaderScan.start zero).readHeaderLines nums zero
    (endedLines sessionFormat.newline csvBody)).finish

/-! ### What was stamped -/

variable {D F : Type} {nums : LogNumbers D F} {zero : D}

/-- The numbers of the header are within their C++ types. -/
def SplLogHeaderInfo.Fits (info : SplLogHeaderInfo D) : Prop :=
  info.blockSamples < 2 ^ 32 ∧ info.startedAtUnixMs < 2 ^ 64

instance (info : SplLogHeaderInfo D) : Decidable info.Fits := inferInstanceAs (Decidable (_ ∧ _))

/-- The facts `logHeader(config, info)` stamps that a reader asks for. -/
def headerWritten (config : SplLogConfig D) (info : SplLogHeaderInfo D) : SplLogHeaderParsed D where
  info := info
  referenceOffsetDb := config.referenceOffsetDb
  calibrated := config.calibrated

variable (nums) in
/-- Where the first `n` lines of the header end on disk. -/
def headerCut (mode : TextMode) (config : SplLogConfig D) (info : SplLogHeaderInfo D) (n : ℕ) : ℕ :=
  (mode.translate (((headerPairs nums config info).take n).flatMap fun kv =>
    commentMark ++ writeLine kv.1 kv.2)).length

/-! ### One line of a header -/

/-- A value of digits, signs and letters. -/
def PlainValue (value : Bytes) : Prop :=
  value ≠ [] ∧ ∀ c ∈ value, c ≠ sessionFormat.esc ∧ c ≠ sessionFormat.newline ∧
    c ≠ sessionFormat.carriageReturn

instance (value : Bytes) : Decidable (PlainValue value) := inferInstanceAs (Decidable (_ ∧ _))

theorem CharConv.plainValue {α : Type} (conv : CharConv α) (x : α) : PlainValue (conv.toChars x) :=
  ⟨conv.toChars_ne_nil x, conv.toChars_plain x⟩

theorem plainValue_headerPairs {config : SplLogConfig D} {info : SplLogHeaderInfo D} :
    ∀ kv ∈ headerPairs nums config info, PlainValue kv.2 := by
  have hweighting : ∀ w : WeightingType, PlainValue w.toText := by
    rintro (_ | _ | _) <;> decide +kernel
  have hdetector : ∀ d : TimeWeighting, PlainValue d.toText := by
    rintro (_ | _ | _) <;> decide +kernel
  have hunit : ∀ b : Bool, PlainValue (if b then bytes "dbspl" else bytes "dbfs") := by decide +kernel
  intro kv hkv
  rw [headerPairs] at hkv
  simp only [List.mem_append, List.mem_cons, List.not_mem_nil, or_false, List.mem_map] at hkv
  rcases hkv with (hkv | ⟨level, -, rfl⟩) | rfl
  · rcases hkv with rfl | rfl | rfl | rfl | rfl | rfl | rfl | rfl
    · exact (uintConv 64).plainValue (toUint 64 1)
    · exact (uintConv 64).plainValue _
    · exact nums.double.plainValue _
    · exact (uintConv 32).plainValue _
    · exact hweighting _
    · exact hdetector _
    · exact nums.double.plainValue _
    · exact hunit _
  · exact nums.double.plainValue _
  · exact nums.double.plainValue _

section

variable (mode : TextMode)

/-- The carriage return of a text-mode stream is the one the reader takes away. -/
theorem stripTrailingCr_line {line : Bytes} (h : sessionFormat.stripTrailingCr line = line) :
    sessionFormat.stripTrailingCr (mode.line line) = line := by
  cases mode with
  | lf => exact h
  | crlf => exact (sessionFormat.stripTrailingCr_concat _ _).trans (if_pos rfl)

theorem readHeaderLines_pair {config : SplLogConfig D} {info : SplLogHeaderInfo D}
    {kv : String × Bytes} (hkv : kv ∈ headerPairs nums config info) (s : HeaderScan D)
    (lines : List Bytes) :
    s.readHeaderLines nums zero (mode.line (headerLine kv) :: lines) =
      (s.readKey nums zero (bytes kv.1) kv.2).readHeaderLines nums zero lines := by
  obtain ⟨-, hplain⟩ := plainValue_headerPairs kv hkv
  have hkey : sessionFormat.assign ∉ bytes kv.1 := by
    have hkeys : ∀ key ∈ headerKeys, sessionFormat.assign ∉ bytes key := by decide
    exact hkeys _ (key_mem_headerKeys kv hkv)
  have hescape : sessionFormat.escape kv.2 = kv.2 :=
    sessionFormat.escape_eq_self fun c hc => ⟨(hplain c hc).1, (hplain c hc).2.1⟩
  have hvalue : sessionFormat.stripTrailingCr kv.2 = kv.2 :=
    sessionFormat.stripTrailingCr_eq_self_iff.mpr fun h =>
      (hplain _ (List.mem_of_getLast? h)).2.2 rfl
  have hline : sessionFormat.stripTrailingCr (headerLine kv) = headerLine kv := by
    rw [headerLine, sessionFormat.stripTrailingCr_append
      (List.ne_nil_of_mem (sessionFormat.assign_mem_keyLine _ _)),
      sessionFormat.stripTrailingCr_keyLine, hvalue]
  have hsplit : sessionFormat.splitLine ((headerLine kv).drop 2) = some (bytes kv.1, kv.2) := by
    have hdrop : (headerLine kv).drop commentMark.length = sessionFormat.keyLine (bytes kv.1) kv.2 :=
      List.drop_left
    rw [show 2 = commentMark.length by decide, hdrop, sessionFormat.splitLine_keyLine hkey, hescape]
  have hmark : commentMark.isPrefixOf (headerLine kv) = true :=
    List.isPrefixOf_iff_prefix.mpr (List.prefix_append _ _)
  rw [HeaderScan.readHeaderLines, stripTrailingCr_line mode hline, if_pos hmark, hsplit]

theorem readHeaderLines_pairs {config : SplLogConfig D}
    {info : SplLogHeaderInfo D} {pairs : List (String × Bytes)}
    (hpairs : ∀ kv ∈ pairs, kv ∈ headerPairs nums config info) (s : HeaderScan D)
    (lines : List Bytes) :
    s.readHeaderLines nums zero ((pairs.map fun kv => mode.line (headerLine kv)) ++ lines) =
      (pairs.foldl (fun s kv => s.readKey nums zero (bytes kv.1) kv.2) s).readHeaderLines nums zero
        lines := by
  induction pairs generalizing s with
  | nil => rfl
  | cons kv pairs ih =>
    obtain ⟨hkv, htail⟩ := List.forall_mem_cons.mp hpairs
    rw [List.map_cons, List.cons_append, readHeaderLines_pair mode hkv, ih htail, List.foldl_cons]

theorem readHeaderLines_stop {c : UInt8} (hmark : c ≠ 35) (hnewline : c ≠ sessionFormat.newline)
    {text p : Bytes} (hp : p <+: c :: text) (s : HeaderScan D) :
    s.readHeaderLines nums zero (endedLines sessionFormat.newline p) = s := by
  cases p with
  | nil => rfl
  | cons d p =>
    obtain rfl : d = c := (List.cons_prefix_cons.mp hp).1
    rw [endedLines, if_neg hnewline]
    cases endedLines sessionFormat.newline p with
    | nil => rfl
    | cons line lines =>
      have hno : ¬ commentMark.isPrefixOf (sessionFormat.stripTrailingCr (d :: line)) := by
        rw [List.isPrefixOf_iff_prefix, LineFormat.stripTrailingCr,
          show commentMark = [35, 32] by decide]
        intro hprefix
        have hhead : [35, 32] <+: d :: line := by
          split at hprefix
          · exact hprefix.trans (List.dropLast_prefix _)
          · exact hprefix
        exact hmark (List.cons_prefix_cons.mp hhead).1.symm
      rw [HeaderScan.readHeaderLines, if_neg hno]

/-! ### Headers cut anywhere -/

theorem translate_header (config : SplLogConfig D) (info : SplLogHeaderInfo D) (n : ℕ) :
    mode.translate (((headerPairs nums config info).take n).flatMap fun kv =>
        commentMark ++ writeLine kv.1 kv.2) =
      joinLines sessionFormat.newline
        (((headerPairs nums config info).map fun kv => mode.line (headerLine kv)).take n) := by
  have hlines : ∀ line ∈ ((headerPairs nums config info).take n).map headerLine,
      sessionFormat.newline ∉ line := by
    intro line hline
    obtain ⟨kv, hkv, rfl⟩ := List.mem_map.mp hline
    exact newline_notMem_headerLine kv (List.mem_of_mem_take hkv)
  have hjoin : (((headerPairs nums config info).take n).flatMap fun kv =>
      commentMark ++ writeLine kv.1 kv.2) =
      joinLines sessionFormat.newline (((headerPairs nums config info).take n).map headerLine) := by
    rw [joinLines, List.flatMap_map]
    rfl
  rw [hjoin, TextMode.translate_joinLines hlines, List.map_map, ← List.map_take]
  rfl

theorem length_take_joinLines_mono (newline : UInt8) (lines : List Bytes) {i j : ℕ} (h : i ≤ j) :
    (joinLines newline (lines.take i)).length ≤ (joinLines newline (lines.take j)).length := by
  have hpre : lines.take i <+: lines.take j := List.take_prefix_take_left h
  obtain ⟨rest, hrest⟩ := hpre
  rw [← hrest, joinLines, joinLines, List.flatMap_append, List.length_append]
  exact Nat.le_add_right _ _

/-- **Headline.** A header cut anywhere is read as the keys whose lines, newline included, lie inside
the cut. -/
theorem parseLogHeader_cut (config : SplLogConfig D) (info : SplLogHeaderInfo D) {rest p : Bytes}
    (hp : p <+: mode.translate (logHeader nums config info ++ csvHeaderRow) ++ rest) :
    ∃ k ≤ (headerPairs nums config info).length,
      parseLogHeader nums zero p =
        (((headerPairs nums config info).take k).foldl
          (fun s kv => s.readKey nums zero (bytes kv.1) kv.2) (HeaderScan.start zero)).finish ∧
      ∀ j ≤ (headerPairs nums config info).length,
        headerCut nums mode config info j ≤ p.length ↔ j ≤ k := by
  have hdisk : ∀ line ∈ (headerPairs nums config info).map fun kv => mode.line (headerLine kv),
      sessionFormat.newline ∉ line := by
    intro line hline
    obtain ⟨kv, hkv, rfl⟩ := List.mem_map.mp hline
    have hno := newline_notMem_headerLine kv hkv
    cases mode with
    | lf => exact hno
    | crlf => exact List.mem_append.not.mpr (not_or.mpr ⟨hno, by decide⟩)
  have hcut : ∀ n, headerCut nums mode config info n =
      (joinLines sessionFormat.newline (((headerPairs nums config info).map fun kv =>
        mode.line (headerLine kv)).take n)).length := by
    intro n
    rw [headerCut, translate_header]
  have hmono : ∀ {i j : ℕ}, i ≤ j →
      headerCut nums mode config info i ≤ headerCut nums mode config info j := by
    intro i j h
    rw [hcut, hcut]
    exact length_take_joinLines_mono _ _ h
  obtain ⟨names, hnames⟩ : ∃ names, mode.translate csvHeaderRow = 98 :: names := by
    cases mode with
    | lf => exact ⟨_, rfl⟩
    | crlf => exact ⟨_, rfl⟩
  have hwhole : mode.translate (logHeader nums config info) =
      joinLines sessionFormat.newline ((headerPairs nums config info).map fun kv =>
        mode.line (headerLine kv)) := by
    have h := @translate_header D F nums mode config info (headerPairs nums config info).length
    rwa [List.take_length, ← List.map_take, List.take_length] at h
  rw [mode.translate_append, hnames, List.append_assoc, hwhole] at hp
  rcases endedLines_cut sessionFormat.newline hdisk hp with ⟨q, hq, rfl⟩ | ⟨k, hk, hended, hle, hlt⟩
  · -- the cut is past the header
    refine ⟨_, le_rfl, ?_, fun j hj => iff_of_true ?_ hj⟩
    · rw [parseLogHeader, endedLines_joinLines _ hdisk, readHeaderLines_pairs mode fun _ h => h,
        readHeaderLines_stop (by decide) (by decide) hq, List.take_length]
    · refine (hmono hj).trans ?_
      rw [hcut, ← List.map_take, List.take_length, List.length_append]
      exact Nat.le_add_right _ _
  · rw [List.length_map] at hk
    refine ⟨k, hk.le, ?_, fun j _ => ⟨fun hj => ?_, fun hj => (hmono hj).trans ?_⟩⟩
    · have hread := @readHeaderLines_pairs D F nums zero mode config info _
        (fun kv h => List.mem_of_mem_take h : ∀ kv ∈ (headerPairs nums config info).take k, _)
        (HeaderScan.start zero) []
      rw [List.append_nil] at hread
      rw [parseLogHeader, hended, ← List.map_take, hread]
      rfl
    · by_contra hlt'
      have hstep : headerCut nums mode config info (k + 1) ≤ headerCut nums mode config info j :=
        hmono (Nat.lt_of_not_le hlt')
      rw [← hcut] at hlt
      exact absurd (hstep.trans hj) (Nat.not_le_of_lt hlt)
    · rw [hcut]
      exact hle

/-- What the first `k` keys amount to: the offset is the seventh, the unit the eighth, and the level
of the calibrator, where there is one, the ninth. -/
theorem finish_take {config : SplLogConfig D} {info : SplLogHeaderInfo D} (hfits : info.Fits)
    {k : ℕ} (hk : k ≤ (headerPairs nums config info).length) :
    (((headerPairs nums config info).take k).foldl
      (fun s kv => s.readKey nums zero (bytes kv.1) kv.2) (HeaderScan.start zero)).finish =
      if k < 7 then none
      else
        some
          { info := { info with
              calibratorLevelDb := if k < 9 then none else info.calibratorLevelDb }
            referenceOffsetDb := config.referenceOffsetDb
            calibrated := decide (8 ≤ k) && config.calibrated } := by
  obtain ⟨hblock, hstart⟩ := hfits
  obtain ⟨off, calibrated, base, segment⟩ := config
  obtain ⟨weighting, detector, blockSamples, sampleRate, startedAtUnixMs, level⟩ := info
  cases level with
  | none =>
    rw [headerPairs] at hk ⊢
    simp only [Option.toList_none, List.map_nil, List.append_nil, List.cons_append,
      List.nil_append, List.length_cons, List.length_nil] at hk ⊢
    interval_cases k <;>
    simp [HeaderScan.readKey, HeaderScan.start, HeaderScan.finish, val_toUint hblock,
      val_toUint hstart]
  | some level =>
    rw [headerPairs] at hk ⊢
    simp only [Option.toList_some, List.map_cons, List.map_nil, List.cons_append,
      List.nil_append, List.length_cons, List.length_nil] at hk ⊢
    interval_cases k <;>
    simp [HeaderScan.readKey, HeaderScan.start, HeaderScan.finish, val_toUint hblock,
      val_toUint hstart]

theorem length_headerPairs (config : SplLogConfig D) (info : SplLogHeaderInfo D) :
    (headerPairs nums config info).length = 9 + info.calibratorLevelDb.toList.length := by
  simp only [headerPairs, List.length_append, List.length_map, List.length_cons, List.length_nil]
  omega

/-- From the offset on, what has been read is what was stamped once nothing is missing after it. -/
theorem partial_eq_headerWritten_iff (config : SplLogConfig D) (info : SplLogHeaderInfo D) (k : ℕ) :
    ({ info := { info with calibratorLevelDb := if k < 9 then none else info.calibratorLevelDb }
       referenceOffsetDb := config.referenceOffsetDb
       calibrated := decide (8 ≤ k) && config.calibrated } : SplLogHeaderParsed D) =
        headerWritten config info ↔
      (config.calibrated = true → 8 ≤ k) ∧ (info.calibratorLevelDb ≠ none → 9 ≤ k) := by
  obtain ⟨off, calibrated, base, segment⟩ := config
  obtain ⟨weighting, detector, blockSamples, sampleRate, startedAtUnixMs, level⟩ := info
  have hunit : (decide (8 ≤ k) && calibrated) = calibrated ↔ (calibrated = true → 8 ≤ k) := by
    cases calibrated with
    | false => simp
    | true => simp
  have hlevel : (if k < 9 then none else level) = level ↔ (level ≠ none → 9 ≤ k) := by
    split
    · rename_i hk
      refine ⟨fun h hne => absurd h.symm hne, fun h => ?_⟩
      by_contra hne
      exact absurd (h (Ne.symm hne)) (not_le.mpr hk)
    · rename_i hk
      exact iff_of_true rfl fun _ => by omega
  simp only [headerWritten, SplLogHeaderParsed.mk.injEq, SplLogHeaderInfo.mk.injEq, true_and,
    hunit, hlevel]
  exact and_comm

/-- A header that is whole is read as it was stamped, whatever follows it. -/
theorem parseLogHeader_of_le (config : SplLogConfig D) {info : SplLogHeaderInfo D}
    (hfits : info.Fits) {rest p : Bytes}
    (hp : p <+: mode.translate (logHeader nums config info ++ csvHeaderRow) ++ rest)
    (hle : (mode.translate (logHeader nums config info)).length ≤ p.length) :
    parseLogHeader nums zero p = some (headerWritten config info) := by
  obtain ⟨k, hk, hparse, hcut⟩ := @parseLogHeader_cut D F nums zero mode config info rest p hp
  have hlen := @length_headerPairs D F nums config info
  have hall : (headerPairs nums config info).length ≤ k := by
    rwa [← hcut _ le_rfl, headerCut, List.take_length, ← logHeader]
  rw [hparse, finish_take hfits hk, if_neg (by omega), Option.some.injEq,
    partial_eq_headerWritten_iff]
  exact ⟨fun _ => by omega, fun _ => by omega⟩

end

/-- A cut header is all or nothing exactly if the cut is before the end of the line of the offset,
or past the lines that say something after it. -/
theorem parseLogHeader_whole_iff (mode : TextMode) (config : SplLogConfig D)
    (info : SplLogHeaderInfo D) (hfits : info.Fits) (rest p : Bytes)
    (hp : p <+: mode.translate (logHeader nums config info ++ csvHeaderRow) ++ rest) :
    ((parseLogHeader nums zero p = none ∨
        parseLogHeader nums zero p = some (headerWritten config info)) ∧
      ((mode.translate (logHeader nums config info)).length ≤ p.length →
        parseLogHeader nums zero p = some (headerWritten config info))) ↔
      p.length < headerCut nums mode config info 7 ∨
        (config.calibrated = true → headerCut nums mode config info 8 ≤ p.length) ∧
          (info.calibratorLevelDb ≠ none → headerCut nums mode config info 9 ≤ p.length) := by
  obtain ⟨k, hk, hparse, hcut⟩ := @parseLogHeader_cut D F nums zero mode config info rest p hp
  rw [finish_take hfits hk] at hparse
  have hlen := @length_headerPairs D F nums config info
  have hwhole : (mode.translate (logHeader nums config info)).length =
      headerCut nums mode config info (headerPairs nums config info).length := by
    rw [headerCut, List.take_length, logHeader]
  have hseven : p.length < headerCut nums mode config info 7 ↔ k < 7 := by
    rw [← not_le, hcut 7 (by omega), not_le]
  rw [hwhole, hcut _ le_rfl, hseven, hcut 8 (by omega), hcut 9 (by omega), hparse]
  rcases Nat.lt_or_ge k 7 with hshort | hlong
  · rw [if_pos hshort]
    exact iff_of_true ⟨.inl rfl, fun h => absurd h (by omega)⟩ (.inl hshort)
  · rw [if_neg (not_lt.mpr hlong), Option.some.injEq, partial_eq_headerWritten_iff]
    constructor
    · rintro ⟨hnone | h, -⟩
      · cases hnone
      · exact .inr h
    · rintro (h | h)
      · exact absurd h (not_lt.mpr hlong)
      · exact ⟨.inr h, fun _ => h⟩

/-- A calibrated log. -/
def calibratedLogConfig : SplLogConfig ℚ := ⟨120, true, kLevelFloorDb, 3600⟩

/-- A second of samples to the block. -/
def secondBlocks : SplLogHeaderInfo ℚ := { blockSamples := 48000, sampleRate := 48000 }

/-- The header of a calibrated log, as far as the line of the offset, is that of an uncalibrated
one. -/
theorem parseLogHeader_tornAfterOffset :
    let p := (logHeader fractionLog calibratedLogConfig secondBlocks).take
      (headerCut fractionLog .lf calibratedLogConfig secondBlocks 7)
    p <+: logHeader fractionLog calibratedLogConfig secondBlocks ++ csvHeaderRow ∧
      parseLogHeader fractionLog 0 p =
        some { info := secondBlocks, referenceOffsetDb := 120, calibrated := false } ∧
      ¬ (parseLogHeader fractionLog 0 p = none ∨
        parseLogHeader fractionLog 0 p =
          some (headerWritten calibratedLogConfig secondBlocks)) :=
  ⟨(List.take_prefix _ _).trans (List.prefix_append _ _), by decide +kernel⟩

/-- A cut inside the line of the offset leaves no header. -/
theorem parseLogHeader_whole_tornOffset :
    let p := (logHeader fractionLog calibratedLogConfig secondBlocks).take
      (headerCut fractionLog .lf calibratedLogConfig secondBlocks 7 - 1)
    (parseLogHeader fractionLog 0 p = none ∨
        parseLogHeader fractionLog 0 p = some (headerWritten calibratedLogConfig secondBlocks)) ∧
      ((logHeader fractionLog calibratedLogConfig secondBlocks).length ≤ p.length →
        parseLogHeader fractionLog 0 p =
          some (headerWritten calibratedLogConfig secondBlocks)) :=
  (parseLogHeader_whole_iff .lf calibratedLogConfig secondBlocks (by decide) [] _
    (((List.take_prefix _ _).trans (List.prefix_append _ csvHeaderRow)).trans
      (List.prefix_append _ _))).mpr (.inl (by decide +kernel))

end RtaTool
