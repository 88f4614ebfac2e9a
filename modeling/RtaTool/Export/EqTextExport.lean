import RtaTool.Lib.LineLog
import RtaTool.Lib.StreamText
import RtaTool.Trace.Trace
import RtaTool.Eq.EqInput

/-!
# Filter lists as text

`EqTextExport.h`. A list of filters is written a line a filter, at the precision of the readouts, and
read back line by line; a line that cannot be read is refused and its number is kept.

## Main definitions

* `renderFilterList`, `parseFilterList`
* `ExportedFilter.PrintedAs` -- a row that was written and read back

## Main results

* `parseFilterList_lines` -- every line is skipped, imported or refused
* `filterList_roundTrip` -- **Headline.** What is written is read back, as it was printed
-/

namespace RtaTool

/-! ### The source -/

/-- `ExportedFilter`. -/
structure ExportedFilter where
  spec : AutoEq.FilterSpec Binary64Datum
  applied : Bool

/-- `typeName(type)`. -/
def typeName : FilterType → Bytes
  | .lowShelf => bytes "lowshelf"
  | .highShelf => bytes "highshelf"
  | .peaking => bytes "peaking"

/-- `typeFromName(name)`. -/
def typeFromName (name : Bytes) : Option FilterType :=
  if name = bytes "peaking" then some .peaking
  else if name = bytes "lowshelf" then some .lowShelf
  else if name = bytes "highshelf" then some .highShelf
  else none

/-- `kAppliedToken`. -/
def kAppliedToken : Bytes := bytes "applied"

/-- `snprintf` into the buffer of 160 bytes, the last of them for the terminator. -/
def snprintfLine (text : Bytes) : Bytes := text.take 159

/-- A row of `renderFilterList`. -/
def renderFilter (filter : ExportedFilter) : Bytes :=
  snprintfLine (typeName filter.spec.type ++ bytes " " ++ printFixed 0 filter.spec.fcHz ++
    bytes " " ++ printFixed 2 filter.spec.q ++ bytes " " ++ printFixed 1 filter.spec.gainDb ++
    (if filter.applied then bytes " " else []) ++ (if filter.applied then kAppliedToken else []) ++
    bytes "\n")

/-- What `renderFilterList` writes before the rows. -/
def renderHeader (sampleRate : Binary64Datum) : Bytes :=
  snprintfLine (bytes "# rta-eq filter list v1\n# sample_rate_hz=" ++ printFixed 0 sampleRate ++
    bytes "\n") ++
  bytes "# type fc_hz q gain_db [applied]\n" ++
  bytes "# 'applied' = already in the signal path this measurement came\n" ++
  bytes "# through. Do NOT load such a row back into that same processor.\n"

/-- `renderFilterList(filters, sampleRate)`. -/
def renderFilterList (filters : List ExportedFilter) (sampleRate : Binary64Datum) : Bytes :=
  renderHeader sampleRate ++ filters.flatMap renderFilter

/-- `FilterListParse`. -/
structure FilterListParse where
  filters : List ExportedFilter
  rejectedLines : List ℕ

/-- `kUtf8Bom`. -/
def kUtf8Bom : Bytes := [0xEF, 0xBB, 0xBF]

/-- The first statement of `parseFilterList`. -/
def stripBom (text : Bytes) : Bytes :=
  if kUtf8Bom.isPrefixOf text then text.drop kUtf8Bom.length else text

/-- A line with nothing on it but blanks and control characters, or a comment. -/
def isBlankOrComment (line : Bytes) : Bool :=
  match line.find? (fun c => c > 32) with
  | none => true
  | some glyph => glyph = 35

/-- The fields of a line. -/
def readRow (line : Bytes) : Option ExportedFilter :=
  match extractWord line with
  | none => none
  | some (name, fields) =>
    match extractDouble fields with
    | none => none
    | some (fcHz, fields) =>
      match extractDouble fields with
      | none => none
      | some (q, fields) =>
        match extractDouble fields with
        | none => none
        | some (gainDb, fields) =>
          match typeFromName name with
          | none => none
          | some type =>
            match extractWord fields with
            | none => some { spec := { type, fcHz, q, gainDb }, applied := false }
            | some (flag, fields) =>
              if flag ≠ kAppliedToken ∨ (extractWord fields).isSome then none
              else some { spec := { type, fcHz, q, gainDb }, applied := true }

/-- The loop of `parseFilterList`, after so many lines. -/
def parseLines : ℕ → FilterListParse → List Bytes → FilterListParse
  | _, parse, [] => parse
  | lineNumber, parse, line :: lines =>
    if isBlankOrComment line then parseLines (lineNumber + 1) parse lines
    else
      match readRow line with
      | none =>
        parseLines (lineNumber + 1)
          { parse with rejectedLines := parse.rejectedLines ++ [lineNumber + 1] } lines
      | some filter =>
        parseLines (lineNumber + 1) { parse with filters := parse.filters ++ [filter] } lines

/-- `parseFilterList(text)`. -/
def parseFilterList (text : Bytes) : FilterListParse :=
  parseLines 0 { filters := [], rejectedLines := [] } (textLines 10 (stripBom text))

/-! ### Every line once -/

/-- A line that is neither skipped nor imported. -/
def isRefused (line : Bytes) : Bool := !isBlankOrComment line && (readRow line).isNone

/-- The numbers of the refused lines, counted from `first`. -/
def refusedNumbers (first : ℕ) (lines : List Bytes) : List ℕ :=
  ((lines.zipIdx first).filter fun l => isRefused l.1).map Prod.snd

/-- The rows of the lines that are not skipped. -/
def importedRows (lines : List Bytes) : List ExportedFilter :=
  (lines.filter fun line => !isBlankOrComment line).filterMap readRow

/-- **What the loop makes of the lines.** -/
theorem parseLines_eq (lineNumber : ℕ) (parse : FilterListParse) (lines : List Bytes) :
    parseLines lineNumber parse lines =
      { filters := parse.filters ++ importedRows lines
        rejectedLines := parse.rejectedLines ++ refusedNumbers (lineNumber + 1) lines } := by
  induction lines generalizing lineNumber parse with
  | nil => simp [parseLines, importedRows, refusedNumbers]
  | cons line lines ih =>
    rw [parseLines, importedRows, refusedNumbers, List.zipIdx_cons]
    by_cases hskip : isBlankOrComment line
    · rw [if_pos hskip, ih]
      simp [importedRows, refusedNumbers, isRefused, hskip]
    · rw [if_neg hskip]
      cases hrow : readRow line with
      | none =>
        dsimp only
        rw [ih]
        simp [importedRows, refusedNumbers, isRefused, hskip, hrow]
      | some filter =>
        dsimp only
        rw [ih]
        simp [importedRows, refusedNumbers, isRefused, hskip, hrow]

theorem refusedNumbers_pairwise (first : ℕ) (lines : List Bytes) :
    (refusedNumbers first lines).Pairwise (· < ·) := by
  have hsub : (refusedNumbers first lines).Sublist (List.range' first lines.length) := by
    rw [← List.zipIdx_map_snd first lines]
    exact List.filter_sublist.map _
  exact (List.pairwise_lt_range' 1).sublist hsub

theorem mem_refusedNumbers {first n : ℕ} {lines : List Bytes} :
    n ∈ refusedNumbers first lines ↔
      ∃ line, first ≤ n ∧ lines[n - first]? = some line ∧ isRefused line = true := by
  simp only [refusedNumbers, List.mem_map, List.mem_filter, Prod.exists,
    List.mk_mem_zipIdx_iff_le_and_getElem?_sub, and_assoc]
  constructor
  · rintro ⟨line, b, hle, hline, hrefused, rfl⟩
    exact ⟨line, hle, hline, hrefused⟩
  · rintro ⟨line, hle, hline, hrefused⟩
    exact ⟨line, n, hle, hline, hrefused, rfl⟩

theorem length_refusedNumbers (first : ℕ) (lines : List Bytes) :
    (refusedNumbers first lines).length = lines.countP isRefused := by
  rw [refusedNumbers, List.length_map, ← List.countP_eq_length_filter]
  conv_rhs => rw [← List.zipIdx_map_fst first lines, List.countP_map]
  rfl

theorem countP_lines (lines : List Bytes) :
    lines.countP isBlankOrComment + (importedRows lines).length + lines.countP isRefused =
      lines.length := by
  induction lines with
  | nil => rfl
  | cons line lines ih =>
    rw [List.countP_cons, List.countP_cons, List.length_cons, ← ih, importedRows, importedRows]
    by_cases hskip : isBlankOrComment line
    · simp [isRefused, hskip]
      omega
    · cases hrow : readRow line <;> simp [isRefused, hskip, hrow] <;> omega

/-- **Every line is counted once.** -/
theorem parseFilterList_lines (text : Bytes) :
    (textLines 10 (stripBom text)).countP isBlankOrComment + (parseFilterList text).filters.length +
      (parseFilterList text).rejectedLines.length = (textLines 10 (stripBom text)).length ∧
    (parseFilterList text).filters = importedRows (textLines 10 (stripBom text)) ∧
    (parseFilterList text).rejectedLines.Pairwise (· < ·) ∧
    ∀ n, n ∈ (parseFilterList text).rejectedLines ↔ ∃ line, 1 ≤ n ∧
      (textLines 10 (stripBom text))[n - 1]? = some line ∧ isRefused line = true := by
  rw [parseFilterList, parseLines_eq]
  refine ⟨?_, rfl, refusedNumbers_pairwise 1 _, fun n => mem_refusedNumbers⟩
  dsimp only
  rw [List.nil_append, List.nil_append, length_refusedNumbers]
  exact countP_lines _

/-! ### Rows -/

/-- A double and what reading it back at so many places gives. -/
def ReadsBack (places : ℕ) (x y : Binary64Datum) : Prop :=
  ∃ a b, x = .finite a ∧ y = .finite b ∧ a.roundedTo places = some b

namespace ExportedFilter

/-- The values a filter designer gives. -/
def InRange (filter : ExportedFilter) : Prop :=
  ∃ fcHz q gainDb : Binary64, filter.spec.fcHz = .finite fcHz ∧ filter.spec.q = .finite q ∧
    filter.spec.gainDb = .finite gainDb ∧ (0 < fcHz.value ∧ fcHz.value < 10 ^ 6) ∧
    (0 < q.value ∧ q.value < 10 ^ 6) ∧ |gainDb.value| < 10 ^ 6

/-- The row that is read back: the frequency in whole hertz, the quality to two places and the gain
to one. -/
structure PrintedAs (filter row : ExportedFilter) : Prop where
  type : row.spec.type = filter.spec.type
  fcHz : ReadsBack 0 filter.spec.fcHz row.spec.fcHz
  q : ReadsBack 2 filter.spec.q row.spec.q
  gainDb : ReadsBack 1 filter.spec.gainDb row.spec.gainDb
  applied : row.applied = filter.applied

/-- The frequency is in whole hertz. -/
def WholeHertz (row : ExportedFilter) : Prop :=
  ∃ (fcHz : Binary64) (n : ℕ), row.spec.fcHz = .finite fcHz ∧ fcHz.magnitude = n

end ExportedFilter

/-- The text of a row, less its newline. -/
def rowText (filter : ExportedFilter) : Bytes :=
  typeName filter.spec.type ++ (32 :: (printFixed 0 filter.spec.fcHz ++
    (32 :: (printFixed 2 filter.spec.q ++ (32 :: (printFixed 1 filter.spec.gainDb ++
      if filter.applied then 32 :: kAppliedToken else []))))))

@[simp] theorem abs_value (x : Binary64) : |x.value| = x.magnitude := by
  rw [Binary64.value]
  split_ifs
  · rw [abs_neg, abs_of_nonneg x.magnitude_nonneg]
  · exact abs_of_nonneg x.magnitude_nonneg

/-- Below a million nine digits are enough, the sign apart. -/
theorem length_printFixed_le (places : ℕ) {x : Binary64} (h : x.magnitude ≤ 10 ^ 6) :
    (printFixed places (.finite x)).length ≤ 9 + places := by
  have hunits : roundEven (x.magnitude * 10 ^ places) ≤ 10 ^ 6 * 10 ^ places :=
    roundEven_le (by push_cast; exact mul_le_mul_of_nonneg_right h (by positivity))
  have hwhole : roundEven (x.magnitude * 10 ^ places) / 10 ^ places < 10 ^ 7 := by
    have := Nat.div_le_of_le_mul (hunits.trans_eq (Nat.mul_comm _ _))
    omega
  have hdigits := length_decimal_le (by decide) hwhole
  have hsign : (signText x.negative).length ≤ 1 := by
    cases x.negative <;> decide
  rw [printFixed, fixedText, List.length_append, List.length_append]
  split_ifs
  · rw [List.length_nil]
    omega
  · rw [List.length_cons, length_paddedDecimal]
    omega

variable {filter : ExportedFilter}

theorem ExportedFilter.InRange.magnitude_le (h : filter.InRange) :
    ∃ fcHz q gainDb : Binary64, filter.spec.fcHz = .finite fcHz ∧ filter.spec.q = .finite q ∧
      filter.spec.gainDb = .finite gainDb ∧ fcHz.magnitude ≤ 10 ^ 6 ∧ q.magnitude ≤ 10 ^ 6 ∧
      gainDb.magnitude ≤ 10 ^ 6 := by
  obtain ⟨fcHz, q, gainDb, hfc, hq, hgain, ⟨hfc0, hfc'⟩, ⟨hq0, hq'⟩, hgain'⟩ := h
  refine ⟨fcHz, q, gainDb, hfc, hq, hgain, ?_, ?_, ?_⟩
  · rw [← abs_value, abs_of_pos hfc0]
    exact hfc'.le
  · rw [← abs_value, abs_of_pos hq0]
    exact hq'.le
  · rw [← abs_value]
    exact hgain'.le

theorem renderFilter_eq_snprintfLine (filter : ExportedFilter) :
    renderFilter filter = snprintfLine (rowText filter ++ [10]) := by
  have hblank : bytes " " = [32] := rfl
  have hnewline : bytes "\n" = [10] := rfl
  rw [renderFilter, rowText, hblank, hnewline]
  cases filter.applied <;> simp

theorem renderFilter_eq (h : filter.InRange) :
    renderFilter filter = rowText filter ++ [10] := by
  obtain ⟨fcHz, q, gainDb, hfc, hq, hgain, hfc', hq', hgain'⟩ := h.magnitude_le
  have htype : (typeName filter.spec.type).length ≤ 9 := by
    cases filter.spec.type <;> decide
  have hflag : (if filter.applied then 32 :: kAppliedToken else []).length ≤ 8 := by
    cases filter.applied <;> decide
  have hfcText := length_printFixed_le 0 hfc'
  have hqText := length_printFixed_le 2 hq'
  have hgainText := length_printFixed_le 1 hgain'
  rw [renderFilter_eq_snprintfLine, snprintfLine, List.take_of_length_le]
  rw [rowText, hfc, hq, hgain]
  simp only [List.length_append, List.length_cons, List.length_nil]
  omega

variable {filters : List ExportedFilter} {x : Binary64}

theorem readsBack_of_magnitude_le (places : ℕ) (hplaces : places ≤ 9) (h : x.magnitude ≤ 10 ^ 6) :
    ∃ y, ReadsBack places (.finite x) y ∧ printFixed places y = printFixed places (.finite x) ∧
      ∀ rest, Apart rest →
        extractDouble (32 :: (printFixed places (.finite x) ++ rest)) = some (y, rest) := by
  obtain ⟨y, hy, -⟩ := Binary64.roundedTo_spec hplaces h
  refine ⟨.finite y, ⟨x, y, rfl, rfl, hy⟩, printFixed_roundedTo hplaces h hy, ?_⟩
  intro rest hrest
  rw [extractDouble_printFixed places x hrest, hy]
  rfl

theorem ReadsBack.whole {y : Binary64Datum} (h : ReadsBack 0 (.finite x) y)
    (hx : x.magnitude ≤ 10 ^ 6) :
    ∃ (b : Binary64) (n : ℕ), y = .finite b ∧ b.magnitude = n := by
  obtain ⟨a, b, ha, hb, hround⟩ := h
  obtain rfl := Binary64Datum.finite.inj ha
  exact ⟨b, _, hb, Binary64.roundedTo_zero hx hround⟩

theorem typeFromName_typeName (type : FilterType) : typeFromName (typeName type) = some type := by
  cases type <;> rfl

theorem typeName_word (type : FilterType) :
    typeName type ≠ [] ∧ ∀ c ∈ typeName type, isSpace c = false := by
  cases type <;> decide +kernel

theorem apart_cons (s : Bytes) : Apart (32 :: s) := by
  rintro c hc
  obtain rfl := Option.some.inj hc
  decide

/-- **A row is read back.** -/
theorem readRow_rowText (h : filter.InRange) :
    ∃ row, readRow (rowText filter) = some row ∧ filter.PrintedAs row ∧ row.WholeHertz ∧
      rowText row = rowText filter := by
  obtain ⟨fcHz, q, gainDb, hfc, hq, hgain, hfc', hq', hgain'⟩ := h.magnitude_le
  obtain ⟨fcHz', hfcBack, hfcText, hfcRead⟩ :=
    readsBack_of_magnitude_le 0 (by decide) hfc'
  have hwhole := hfcBack.whole hfc'
  obtain ⟨q', hqBack, hqText, hqRead⟩ := readsBack_of_magnitude_le 2 (by decide) hq'
  obtain ⟨gainDb', hgainBack, hgainText, hgainRead⟩ :=
    readsBack_of_magnitude_le 1 (by decide) hgain'
  rw [← hfc] at hfcBack hfcText hfcRead
  rw [← hq] at hqBack hqText hqRead
  rw [← hgain] at hgainBack hgainText hgainRead
  obtain ⟨hne, hword⟩ := typeName_word filter.spec.type
  have hflagWord : kAppliedToken ≠ [] ∧ ∀ c ∈ kAppliedToken, isSpace c = false := by
    decide +kernel
  have hflag : Apart (if filter.applied then 32 :: kAppliedToken else []) := by
    cases filter.applied
    · exact fun c hc => (by cases hc)
    · exact apart_cons kAppliedToken
  refine ⟨⟨⟨filter.spec.type, fcHz', q', gainDb'⟩, filter.applied⟩, ?_,
    ⟨rfl, hfcBack, hqBack, hgainBack, rfl⟩, hwhole, ?_⟩
  · rw [readRow, rowText, extractWord_append hne hword (apart_cons _)]
    dsimp only
    rw [hfcRead _ (apart_cons _)]
    dsimp only
    rw [hqRead _ (apart_cons _)]
    dsimp only
    rw [hgainRead _ hflag]
    dsimp only
    rw [typeFromName_typeName]
    dsimp only
    cases filter.applied with
    | false => rfl
    | true =>
      have hread : extractWord (kAppliedToken ++ []) = some (kAppliedToken, []) :=
        extractWord_append hflagWord.1 hflagWord.2 fun c hc => (by cases hc)
      rw [List.append_nil] at hread
      rw [if_pos rfl, extractWord_blank, hread]
      rfl
  · rw [rowText, rowText]
    dsimp only
    rw [hfcText, hqText, hgainText]

/-! ### The list -/

/-- A line that begins with a hash. -/
def CommentLine (line : Bytes) : Prop := 10 ∉ line ∧ line.head? = some 35

instance (line : Bytes) : Decidable (CommentLine line) := inferInstanceAs (Decidable (_ ∧ _))

theorem CommentLine.skipped {line : Bytes} (h : CommentLine line) :
    isBlankOrComment line = true := by
  obtain ⟨s, rfl⟩ := List.head?_eq_some_iff.mp h.2
  rw [isBlankOrComment, List.find?_cons_of_pos (by decide)]
  rfl

theorem CommentLine.append {line s : Bytes} (h : CommentLine line) (hs : 10 ∉ s) :
    CommentLine (line ++ s) := by
  obtain ⟨t, rfl⟩ := List.head?_eq_some_iff.mp h.2
  refine ⟨fun hmem => ?_, rfl⟩
  exact (List.mem_append.mp hmem).elim h.1 hs

theorem isBlankOrComment_rowText (filter : ExportedFilter) :
    isBlankOrComment (rowText filter) = false := by
  have hglyph : ∃ c s, typeName filter.spec.type = c :: s ∧ c > 32 ∧ c ≠ 35 := by
    cases filter.spec.type
    · exact ⟨112, bytes "eaking", rfl, by decide, by decide⟩
    · exact ⟨108, bytes "owshelf", rfl, by decide, by decide⟩
    · exact ⟨104, bytes "ighshelf", rfl, by decide, by decide⟩
  obtain ⟨c, s, hcs, hvisible, hhash⟩ := hglyph
  rw [rowText, hcs, List.cons_append, isBlankOrComment,
    List.find?_cons_of_pos (by exact decide_eq_true hvisible)]
  exact decide_eq_false hhash

theorem newline_notMem_rowText : 10 ∉ rowText filter := by
  have hspace : isSpace 10 = true := by decide
  have hnumber : ∀ places x, 10 ∉ printFixed places x := by
    intro places x h
    rw [not_isSpace_of_mem_printFixed h] at hspace
    cases hspace
  have htype : 10 ∉ typeName filter.spec.type := by
    cases filter.spec.type <;> decide
  have hflag : 10 ∉ (if filter.applied then 32 :: kAppliedToken else []) := by
    cases filter.applied <;> decide
  simp only [rowText, List.mem_append, List.mem_cons, not_or]
  exact ⟨htype, by decide, hnumber _ _, by decide, hnumber _ _, by decide, hnumber _ _, hflag⟩

/-- The lines of the header after the sample rate. -/
def headerNotes : List Bytes :=
  [bytes "# type fc_hz q gain_db [applied]",
    bytes "# 'applied' = already in the signal path this measurement came",
    bytes "# through. Do NOT load such a row back into that same processor."]

theorem renderHeader_comments (sampleRate : Binary64Datum) :
    ∃ lines, renderHeader sampleRate = joinLines 10 lines ∧
      ∀ line ∈ lines, CommentLine line := by
  have hnotes : bytes "# type fc_hz q gain_db [applied]\n" ++
      (bytes "# 'applied' = already in the signal path this measurement came\n" ++
        bytes "# through. Do NOT load such a row back into that same processor.\n") =
      joinLines 10 headerNotes := rfl
  have hstart : bytes "# rta-eq filter list v1\n# sample_rate_hz=" =
      bytes "# rta-eq filter list v1" ++ 10 :: bytes "# sample_rate_hz=" := rfl
  have hlength : (bytes "# rta-eq filter list v1\n# sample_rate_hz=").length = 41 := by
    decide +kernel
  have hnewline : bytes "\n" = [10] := rfl
  have hprinted : ∀ n, 10 ∉ (printFixed 0 sampleRate).take n := by
    intro n h
    have hspace := not_isSpace_of_mem_printFixed (List.mem_of_mem_take h)
    rw [show isSpace 10 = true by decide] at hspace
    cases hspace
  have hcut : snprintfLine (bytes "# rta-eq filter list v1\n# sample_rate_hz=" ++
      printFixed 0 sampleRate ++ bytes "\n") =
      bytes "# rta-eq filter list v1" ++ 10 :: (bytes "# sample_rate_hz=" ++
        (printFixed 0 sampleRate ++ [10]).take 118) := by
    rw [snprintfLine, List.append_assoc, List.take_append, hlength, hnewline, hstart,
      List.take_of_length_le (by rw [← hstart, hlength]; decide), List.append_assoc]
    rfl
  have htitle : CommentLine (bytes "# rta-eq filter list v1") := by decide +kernel
  have hrate : CommentLine (bytes "# sample_rate_hz=") := by decide +kernel
  have hcomments : ∀ line ∈ headerNotes, CommentLine line := by decide +kernel
  rw [renderHeader, hcut, List.append_assoc, List.append_assoc, hnotes]
  by_cases hfit : (printFixed 0 sampleRate).length + 1 ≤ 118
  · refine ⟨bytes "# rta-eq filter list v1" :: (bytes "# sample_rate_hz=" ++
      printFixed 0 sampleRate) :: headerNotes, ?_, ?_⟩
    · rw [List.take_of_length_le (by rw [List.length_append]; exact hfit), joinLines_cons,
        joinLines_cons]
      simp
    · have hall := hprinted (printFixed 0 sampleRate).length
      rw [List.take_length] at hall
      simp only [List.forall_mem_cons]
      exact ⟨htitle, hrate.append hall, hcomments⟩
  · -- The newline is cut off, and the first note goes on the same line.
    obtain ⟨note, notes, hsplit⟩ : ∃ note notes, headerNotes = note :: notes := ⟨_, _, rfl⟩
    rw [hsplit] at hcomments ⊢
    obtain ⟨hnote, hrest⟩ := List.forall_mem_cons.mp hcomments
    refine ⟨bytes "# rta-eq filter list v1" :: (bytes "# sample_rate_hz=" ++
      ((printFixed 0 sampleRate).take 118 ++ note)) :: notes, ?_, ?_⟩
    · rw [List.take_append_of_le_length (by omega), joinLines_cons, joinLines_cons, joinLines_cons]
      simp
    · simp only [List.forall_mem_cons]
      refine ⟨htitle, hrate.append fun hmem => ?_, hrest⟩
      exact (List.mem_append.mp hmem).elim (hprinted 118) hnote.1

theorem renderHeader_head? (sampleRate : Binary64Datum) :
    (renderHeader sampleRate).head? = some 35 := by
  have hstart : bytes "# rta-eq filter list v1\n# sample_rate_hz=" =
      35 :: bytes " rta-eq filter list v1\n# sample_rate_hz=" := rfl
  rw [renderHeader, snprintfLine, hstart]
  rfl

theorem renderFilterList_lines
    (h : ∀ filter ∈ filters, filter.InRange) (sampleRate : Binary64Datum) :
    ∃ header, (∀ line ∈ header, CommentLine line) ∧
      textLines 10 (stripBom (renderFilterList filters sampleRate)) =
        header ++ filters.map rowText := by
  obtain ⟨header, hheader, hcomments⟩ := renderHeader_comments sampleRate
  refine ⟨header, hcomments, ?_⟩
  have hrows : filters.flatMap renderFilter = joinLines 10 (filters.map rowText) := by
    rw [joinLines, List.flatMap_map]
    exact List.flatMap_congr fun filter hfilter => renderFilter_eq (h filter hfilter)
  have htext : renderFilterList filters sampleRate =
      joinLines 10 (header ++ filters.map rowText) := by
    rw [renderFilterList, hheader, hrows, joinLines, joinLines, joinLines, List.flatMap_append]
  have hbom : stripBom (renderFilterList filters sampleRate) =
      renderFilterList filters sampleRate := by
    obtain ⟨s, hs⟩ := List.head?_eq_some_iff.mp (renderHeader_head? sampleRate)
    rw [renderFilterList, hs, List.cons_append, stripBom, kUtf8Bom, List.isPrefixOf]
    rfl
  have hlines : ∀ line ∈ header ++ filters.map rowText, 10 ∉ line := by
    intro line hline
    rcases List.mem_append.mp hline with hline | hline
    · exact (hcomments line hline).1
    · obtain ⟨filter, -, rfl⟩ := List.mem_map.mp hline
      exact newline_notMem_rowText
  rw [hbom, htext, textLines_joinLines 10 hlines]

theorem importedRows_rowTexts (h : ∀ filter ∈ filters, filter.InRange) :
    ∃ rows, importedRows (filters.map rowText) = rows ∧
      (filters.map rowText).countP isRefused = 0 ∧
      List.Forall₂ ExportedFilter.PrintedAs filters rows ∧ (∀ row ∈ rows, row.WholeHertz) ∧
      rows.flatMap renderFilter = filters.flatMap renderFilter := by
  induction filters with
  | nil => exact ⟨[], rfl, rfl, .nil, List.forall_mem_nil _, rfl⟩
  | cons filter filters ih =>
    obtain ⟨hfilter, hfilters⟩ := List.forall_mem_cons.mp h
    obtain ⟨rows, hrows, hrefused, hprinted, hwhole, htexts⟩ := ih hfilters
    obtain ⟨row, hread, hrow, hrowWhole, htext⟩ := readRow_rowText hfilter
    have hshown := isBlankOrComment_rowText filter
    refine ⟨row :: rows, ?_, ?_, .cons hrow hprinted,
      List.forall_mem_cons.mpr ⟨hrowWhole, hwhole⟩, ?_⟩
    · rw [← hrows]
      simp [importedRows, hshown, hread]
    · rw [List.map_cons, List.countP_cons, hrefused]
      simp [isRefused, hread]
    · rw [List.flatMap_cons, List.flatMap_cons, htexts, renderFilter_eq_snprintfLine row,
        renderFilter_eq_snprintfLine filter, htext]

/-- **Headline.** The list of filters that a designer can give is read back, none of its lines
refused: the rows are the filters in order, at the precision they were printed with, the frequency
in whole hertz, and printed again they are the same text. And whatever text is read, each of its
lines is a blank or a comment, a row that is imported, or one that is refused, and the numbers of
the refused lines are in order. -/
theorem filterList_roundTrip :
    (∀ (filters : List ExportedFilter) (sampleRate : Binary64Datum),
      (∀ filter ∈ filters, filter.InRange) →
      ∃ rows, parseFilterList (renderFilterList filters sampleRate) =
          { filters := rows, rejectedLines := [] } ∧
        List.Forall₂ ExportedFilter.PrintedAs filters rows ∧
        (∀ row ∈ rows, row.WholeHertz) ∧
        renderFilterList rows sampleRate = renderFilterList filters sampleRate) ∧
    ∀ text : Bytes,
      (textLines 10 (stripBom text)).countP isBlankOrComment +
        (parseFilterList text).filters.length + (parseFilterList text).rejectedLines.length =
          (textLines 10 (stripBom text)).length ∧
      (parseFilterList text).filters = importedRows (textLines 10 (stripBom text)) ∧
      (parseFilterList text).rejectedLines.Pairwise (· < ·) ∧
      ∀ n, n ∈ (parseFilterList text).rejectedLines ↔ ∃ line, 1 ≤ n ∧
        (textLines 10 (stripBom text))[n - 1]? = some line ∧ isRefused line = true := by
  refine ⟨fun filters sampleRate h => ?_, parseFilterList_lines⟩
  obtain ⟨header, hcomments, hlines⟩ := renderFilterList_lines h sampleRate
  obtain ⟨rows, hrows, hrefused, hprinted, hwhole, htexts⟩ := importedRows_rowTexts h
  refine ⟨rows, ?_, hprinted, hwhole, ?_⟩
  · have hskipped : importedRows (header ++ filters.map rowText) = rows := by
      rw [importedRows, List.filter_append, List.filterMap_append, ← hrows, importedRows,
        List.filter_eq_nil_iff.mpr fun line hline => by rw [(hcomments line hline).skipped]; simp]
      rfl
    have hnone : refusedNumbers 1 (header ++ filters.map rowText) = [] := by
      have hheader : header.countP isRefused = 0 := List.countP_eq_zero.mpr fun line hline => by
        rw [isRefused, (hcomments line hline).skipped]
        simp
      rw [← List.length_eq_zero_iff, length_refusedNumbers, List.countP_append, hheader, hrefused]
    rw [parseFilterList, parseLines_eq, hlines, hskipped, hnone]
    rfl
  · rw [renderFilterList, renderFilterList, htexts]

/-- 1000 Hz, 1.5 and -3.5 dB. -/
def thousandHertz : AutoEq.FilterSpec Binary64Datum where
  type := .lowShelf
  fcHz := .finite ⟨false, 1000 * 2 ^ 43, -43, by decide, by decide, by decide, by decide⟩
  q := .finite ⟨false, 3 * 2 ^ 51, -52, by decide, by decide, by decide, by decide⟩
  gainDb := .finite ⟨true, 7 * 2 ^ 50, -51, by decide, by decide, by decide, by decide⟩

theorem thousandHertz_inRange (applied : Bool) :
    (ExportedFilter.mk thousandHertz applied).InRange := by
  refine ⟨_, _, _, rfl, rfl, rfl, ?_, ?_, ?_⟩ <;> norm_num [Binary64.value, Binary64.magnitude]

theorem filterList_roundTrip_applied :
    ∃ rows, parseFilterList (renderFilterList [⟨thousandHertz, true⟩, ⟨thousandHertz, false⟩]
        (.notANumber false)) = { filters := rows, rejectedLines := [] } ∧
      List.Forall₂ ExportedFilter.PrintedAs
        [⟨thousandHertz, true⟩, ⟨thousandHertz, false⟩] rows := by
  obtain ⟨rows, hparse, hprinted, -⟩ := filterList_roundTrip.1
    [⟨thousandHertz, true⟩, ⟨thousandHertz, false⟩] (.notANumber false) (by
      simp only [List.forall_mem_cons, List.not_mem_nil, false_implies, implies_true, and_true]
      exact ⟨thousandHertz_inRange true, thousandHertz_inRange false⟩)
  exact ⟨rows, hparse, hprinted⟩

end RtaTool
