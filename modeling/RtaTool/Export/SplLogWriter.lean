import RtaTool.Export.SplLog
import RtaTool.Lib.Machine

/-!
# Log files and their reader

`SplLogWriter` owns one growing file at a time: it opens the next segment when the current one has
its number of blocks, and a new generation with segment zero when the settings in the header change.
`SplReportPayloadBuilder::readChannelLog` was written without it: it lists the folder, takes the
files whose names have the right shape, sorts them by the two numbers in the name and reads them
one after another.

The folder is a list of names and contents, and the listing an arbitrary order of it. Input and
output do not fail here. Files are written in text mode, which on one platform puts a carriage
return before every newline, and read as bytes. Generations and segments are natural numbers: there
is no run long enough to wrap them.

## Main definitions

* `TextMode`, `Folder`
* `SplLogWriter`, its constructor `make`, `write` and `reconfigure`
* `parseGenSeg`, `readChannelLog`
* `writerRuns` -- writes and reconfigurations in any order

## Main results

* `parseGenSeg_segmentName` -- the two sides agree on names
* `WriterInv.next` -- what the folder holds, step by step
* `readChannelLog_of_reachable` -- **Headline.** What was written is read, in order, nothing is
  thrown away, and no name is opened twice
-/

namespace RtaTool

/-! ### The folder -/

/-- How a text-mode stream writes a newline. -/
inductive TextMode
  | lf
  | crlf
  deriving DecidableEq, Repr

/-- The bytes that reach the file. -/
def TextMode.translate : TextMode → Bytes → Bytes
  | .lf, text => text
  | .crlf, text => text.flatMap fun c =>
    if c = sessionFormat.newline then [sessionFormat.carriageReturn, sessionFormat.newline] else [c]

/-- A folder's files, and the names opened for writing since the log began. -/
structure Folder where
  files : List (Bytes × Bytes)
  opened : List Bytes := []

namespace Folder

/-- `open(path, out | trunc)`: an existing file is emptied, a new one created. -/
def openTrunc (folder : Folder) (name : Bytes) : Folder where
  files :=
    if name ∈ folder.files.map (·.1) then
      folder.files.map fun f => if f.1 = name then (name, []) else f
    else folder.files ++ [(name, [])]
  opened := folder.opened ++ [name]

/-- Text written through the open stream of `name`. -/
def append (folder : Folder) (mode : TextMode) (name text : Bytes) : Folder :=
  { folder with
    files := folder.files.map fun f =>
      if f.1 = name then (f.1, f.2 ++ mode.translate text) else f }

end Folder

/-! ### The writer -/

/-- `SplLogWriter`. The stem is the last part of `basePath`, the folder's own path being left
out. -/
structure SplLogWriter (D : Type) where
  stem : Bytes
  config : SplLogConfig D
  info : SplLogHeaderInfo D
  segmentIndex : ℕ := 0
  logGeneration : ℕ := 0
  blocksInSegment : ℕ := 0
  stream : Bytes := []
  segmentPaths : List Bytes := []

/-- `basePath + ".gen" + generation + ".seg" + index + ".csv"`. -/
def segmentName (stem : Bytes) (generation index : ℕ) : Bytes :=
  stem ++ bytes ".gen" ++ decimal generation ++ bytes ".seg" ++ decimal index ++ bytes ".csv"

namespace SplLogWriter

variable {D F : Type} (nums : LogNumbers D F) (mode : TextMode)

/-- `openSegment()`. -/
def openSegment (w : SplLogWriter D) (folder : Folder) : SplLogWriter D × Folder :=
  let path := segmentName w.stem w.logGeneration w.segmentIndex
  ({ w with stream := path, segmentPaths := w.segmentPaths ++ [path], blocksInSegment := 0 },
    (folder.openTrunc path).append mode path
      (logHeader nums w.config w.info ++ (csvHeaderRow ++ [sessionFormat.newline])))

/-- The constructor. -/
def make (stem : Bytes) (config : SplLogConfig D) (info : SplLogHeaderInfo D) (folder : Folder) :
    SplLogWriter D × Folder :=
  openSegment nums mode { stem := stem, config := config, info := info } folder

/-- The rotation at the top of `write`. -/
def rotate (w : SplLogWriter D) (folder : Folder) : SplLogWriter D × Folder :=
  if w.config.segmentBlocks ≤ w.blocksInSegment then
    openSegment nums mode { w with segmentIndex := w.segmentIndex + 1 } folder
  else (w, folder)

/-- `write(block)`. -/
def write (w : SplLogWriter D) (folder : Folder) (block : Block D F) :
    SplLogWriter D × Folder :=
  let r := w.rotate nums mode folder
  ({ r.1 with blocksInSegment := r.1.blocksInSegment + 1 },
    r.2.append mode r.1.stream (logRow nums block r.1.config.referenceOffsetDb))

/-- `reconfigure(weighting, detector)`. -/
def reconfigure (w : SplLogWriter D) (folder : Folder) (weighting : WeightingType)
    (detector : TimeWeighting) : SplLogWriter D × Folder :=
  if weighting = w.info.weighting ∧ detector = w.info.detector then (w, folder)
  else
    openSegment nums mode
      { w with
        info := { w.info with weighting := weighting, detector := detector }
        logGeneration := w.logGeneration + 1
        segmentIndex := 0 }
      folder

end SplLogWriter

/-! ### The reader -/

/-- What follows `marker`, where the text starts with it. -/
def afterMarker (marker text : Bytes) : Option Bytes :=
  if marker.isPrefixOf text then some (text.drop marker.length) else none

/-- `parseGenSeg(name, basename)`. -/
def parseGenSeg (name basename : Bytes) : Option (ℕ × ℕ) := do
  let rest ← afterMarker (basename ++ bytes ".gen") name
  let (gen, rest) ← readDecimal rest
  let rest ← afterMarker (bytes ".seg") rest
  let (seg, rest) ← readDecimal rest
  if rest = bytes ".csv" then some (gen, seg) else none

/-- The order the files are sorted in. -/
def segmentBefore (a b : ℕ × ℕ) : Bool := if a.1 ≠ b.1 then a.1 < b.1 else a.2 < b.2

/-- `ChannelLog`. -/
structure ChannelLog (D F H : Type) where
  blocks : List (Block D F) := []
  bytesDiscarded : ℕ := 0
  segmentRawBytes : List Bytes := []
  segmentPaths : List Bytes := []
  header : Option H := none

/-- The part of the name of a channel's files that says which channel it is. -/
def channelStem (channel : ℤ) : Bytes := bytes "ch" ++ decimalInt channel

/-- The files of a listing that are segments of the channel, in the order they are read. -/
def channelFiles (entries : List (Bytes × Bytes)) (channel : ℤ) : List ((ℕ × ℕ) × Bytes × Bytes) :=
  (entries.filterMap fun f =>
    (parseGenSeg f.1 (channelStem channel)).map fun gs => (gs, f)).mergeSort
      fun a b => !segmentBefore b.1 a.1

/-- One turn of `readChannelLog`'s loop over the sorted files. `parseHeader` is
`parseLogHeader`. -/
def ChannelLog.readFile {D F H : Type} (nums : LogNumbers D F) (parseHeader : Bytes → Option H)
    (log : ChannelLog D F H) (file : (ℕ × ℕ) × Bytes × Bytes) : ChannelLog D F H :=
  let part := readLog nums file.2.2
  { blocks := log.blocks ++ part.entries
    bytesDiscarded := log.bytesDiscarded + part.discarded
    segmentRawBytes := log.segmentRawBytes ++ [file.2.2]
    segmentPaths := log.segmentPaths ++ [file.2.1]
    header := (parseHeader file.2.2).or log.header }

/-- `readChannelLog(dir, channel)`, over a listing of the folder. -/
def readChannelLog {D F H : Type} (nums : LogNumbers D F) (parseHeader : Bytes → Option H)
    (entries : List (Bytes × Bytes)) (channel : ℤ) : ChannelLog D F H :=
  (channelFiles entries channel).foldl (.readFile nums parseHeader) {}

/-! ### Runs -/

/-- The writer, its folder, and what has been written. -/
structure WriterRun (D F : Type) where
  writer : SplLogWriter D
  folder : Folder
  written : List (Block D F)

/-- A call of the log pipeline's writer thread. -/
inductive WriterAct (D F : Type)
  | write (block : Block D F)
  | reconfigure (weighting : WeightingType) (detector : TimeWeighting)

namespace WriterRun

variable {D F : Type} (nums : LogNumbers D F) (mode : TextMode)

/-- A new log for a channel, in a folder that holds other files. -/
def start (channel : ℤ) (config : SplLogConfig D) (info : SplLogHeaderInfo D)
    (others : List (Bytes × Bytes)) : WriterRun D F :=
  let r := SplLogWriter.make nums mode (channelStem channel) config info { files := others }
  ⟨r.1, r.2, []⟩

/-- One call. -/
def next (run : WriterRun D F) : WriterAct D F → WriterRun D F
  | .write block =>
    let r := run.writer.write nums mode run.folder block
    ⟨r.1, r.2, run.written ++ [block]⟩
  | .reconfigure weighting detector =>
    let r := run.writer.reconfigure nums mode run.folder weighting detector
    ⟨r.1, r.2, run.written⟩

end WriterRun

/-- Logs of a channel, for any writes and reconfigurations. No other file in the folder has the name
of one of the channel's segments. -/
def writerRuns {D F : Type} (nums : LogNumbers D F) (mode : TextMode) (channel : ℤ) :
    Machine (WriterRun D F) (WriterAct D F) where
  init run := ∃ config info others, (∀ f ∈ others, parseGenSeg f.1 (channelStem channel) = none) ∧
    run = .start nums mode channel config info others
  step run a := some (run.next nums mode a)

/-! ### Names -/

theorem afterMarker_append (marker rest : Bytes) : afterMarker marker (marker ++ rest) = some rest := by
  rw [afterMarker, if_pos (List.isPrefixOf_iff_prefix.mpr (List.prefix_append _ _)), List.drop_left]

/-- A segment's name is parsed as its two numbers. -/
theorem parseGenSeg_segmentName (stem : Bytes) (generation index : ℕ) :
    parseGenSeg (segmentName stem generation index) stem = some (generation, index) := by
  have hseg : ∀ c ∈ (bytes ".seg" ++ (decimal index ++ bytes ".csv")).head?, isDigit c = false := by
    rintro c ⟨⟩
    rfl
  have hcsv : ∀ c ∈ (bytes ".csv").head?, isDigit c = false := by
    rintro c ⟨⟩
    rfl
  have hname : segmentName stem generation index = (stem ++ bytes ".gen") ++
      (decimal generation ++ (bytes ".seg" ++ (decimal index ++ bytes ".csv"))) := by
    rw [segmentName, List.append_assoc, List.append_assoc, List.append_assoc]
  rw [parseGenSeg, hname]
  simp only [afterMarker_append, readDecimal_decimal _ _ hseg, readDecimal_decimal _ _ hcsv,
    Option.bind_eq_bind, Option.bind_some, if_true]

theorem segmentName_inj {stem : Bytes} {g i g' i' : ℕ}
    (h : segmentName stem g i = segmentName stem g' i') : (g, i) = (g', i') := by
  have hparse := parseGenSeg_segmentName stem g i
  rw [h, parseGenSeg_segmentName] at hparse
  exact (Option.some.inj hparse).symm

/-! ### Contents -/

section

variable {D F : Type} {nums : LogNumbers D F} {mode : TextMode}

theorem TextMode.translate_append (mode : TextMode) (s t : Bytes) :
    mode.translate (s ++ t) = mode.translate s ++ mode.translate t := by
  cases mode with
  | lf => rfl
  | crlf => exact List.flatMap_append

/-- A line as it is on disk, less its newline. -/
def TextMode.line : TextMode → Bytes → Bytes
  | .lf, line => line
  | .crlf, line => line ++ [sessionFormat.carriageReturn]

theorem TextMode.translate_joinLines {lines : List Bytes}
    (h : ∀ line ∈ lines, sessionFormat.newline ∉ line) :
    mode.translate (joinLines sessionFormat.newline lines) =
      joinLines sessionFormat.newline (lines.map mode.line) := by
  cases mode with
  | lf =>
    show joinLines _ lines = joinLines _ (lines.map fun line => line)
    rw [List.map_id']
  | crlf =>
    have hline : ∀ line : Bytes, sessionFormat.newline ∉ line →
        TextMode.crlf.translate line = line := by
      intro line
      induction line with
      | nil => exact fun _ => rfl
      | cons c line ih =>
        intro hno
        obtain ⟨hc, hrest⟩ := not_or.mp (List.mem_cons.not.mp hno)
        rw [TextMode.translate, List.flatMap_cons, if_neg (Ne.symm hc)]
        exact congrArg (c :: ·) (ih hrest)
    induction lines with
    | nil => rfl
    | cons line lines ih =>
      obtain ⟨hno, hrest⟩ := List.forall_mem_cons.mp h
      have hnewline : TextMode.crlf.translate [sessionFormat.newline] =
          [sessionFormat.carriageReturn] ++ [sessionFormat.newline] := rfl
      rw [joinLines, List.flatMap_cons, TextMode.translate_append, TextMode.translate_append,
        hline line hno, hnewline, ← joinLines, ih hrest, List.map_cons, joinLines, joinLines,
        List.flatMap_cons, TextMode.line]
      simp only [List.append_assoc]

section

variable (mode : TextMode) (config : SplLogConfig D) (info : SplLogHeaderInfo D)

variable {blocks : List (Block D F)}

/-- A carriage return at the end of a line of a log changes nothing for its reader. -/
theorem judgeLine_line {line : Bytes} (hline : line ∈ logLines nums config info blocks) :
    judgeLine nums (mode.line line) = judgeLine nums line := by
  cases mode with
  | lf => rfl
  | crlf =>
    have hstrip : sessionFormat.stripTrailingCr (TextMode.crlf.line line) = line :=
      (sessionFormat.stripTrailingCr_concat _ _).trans (if_pos rfl)
    rw [logLines, List.mem_append, List.mem_cons, List.mem_map, List.mem_map] at hline
    obtain ⟨kv, -, rfl⟩ | rfl | ⟨b, -, rfl⟩ := hline
    · rw [judgeLine_headerLine, judgeLine, hstrip]
      exact if_pos (.inl (List.isPrefixOf_iff_prefix.mpr (List.prefix_append _ _)))
    · rw [judgeLine_csvHeaderRow, judgeLine, hstrip]
      exact if_pos (.inr rfl)
    · rw [judgeLine, judgeLine, parseRow, parseRow, hstrip, stripTrailingCr_rowLine]

theorem filterMap_logLines (config : SplLogConfig D) (info : SplLogHeaderInfo D)
    (hfits : ∀ b ∈ blocks, b.Fits) :
    ((logLines nums config info blocks).filterMap fun line => (judgeLine nums line).toOption) =
      blocks := by
  have hheader : ((headerPairs nums config info).map headerLine).filterMap
      (fun line => (judgeLine nums line).toOption) = [] := by
    refine List.filterMap_eq_nil_iff.mpr fun line hline => ?_
    obtain ⟨kv, -, rfl⟩ := List.mem_map.mp hline
    rw [judgeLine_headerLine]
    rfl
  have hrows : (blocks.map fun b => rowLine nums b config.referenceOffsetDb).filterMap
      (fun line => (judgeLine nums line).toOption) = blocks := by
    induction blocks with
    | nil => rfl
    | cons b blocks ih =>
      obtain ⟨hb, hblocks⟩ := List.forall_mem_cons.mp hfits
      rw [List.map_cons, List.filterMap_cons, judgeLine_rowLine hb, ih hblocks]
      rfl
  rw [logLines, List.filterMap_append, List.filterMap_cons, judgeLine_csvHeaderRow, hheader, hrows]
  rfl

/-- What is on disk of a log reads back whole, and a fragment after it is thrown away. -/
theorem readLog_translate_append (hfits : ∀ b ∈ blocks, b.Fits)
    {rest : Bytes} (hrest : sessionFormat.newline ∉ rest) :
    readLog nums (mode.translate (logText nums config info blocks) ++ rest) =
      ⟨blocks, rest.length⟩ := by
  have hclean := cleanLine_logLines nums config info hfits
  rw [logText_eq_joinLines, TextMode.translate_joinLines fun line hline => (hclean line hline).1,
    readLog, readLines_joinLines_append _ hrest]
  · refine LineReading.ext ?_ rfl
    rw [List.filterMap_map]
    refine Eq.trans (List.filterMap_congr fun line hline => ?_) (filterMap_logLines config info hfits)
    exact congrArg _ (judgeLine_line mode config info hline)
  · intro line hline
    obtain ⟨line, hmem, rfl⟩ := List.mem_map.mp hline
    refine ⟨?_, by rw [judgeLine_line mode config info hmem]; exact (hclean line hmem).2⟩
    cases mode with
    | lf => exact (hclean line hmem).1
    | crlf =>
      rw [TextMode.line, List.mem_append, not_or]
      exact ⟨(hclean line hmem).1, by decide⟩

theorem readLog_translate (hfits : ∀ b ∈ blocks, b.Fits) :
    readLog nums (mode.translate (logText nums config info blocks)) = ⟨blocks, 0⟩ := by
  have h := @readLog_translate_append D F nums mode config info blocks hfits [] List.not_mem_nil
  rwa [List.append_nil] at h

end

/-! ### What the folder holds -/

/-- A segment as it was meant: its two numbers, its header and its blocks. -/
structure Segment (D F : Type) where
  generation : ℕ
  index : ℕ
  info : SplLogHeaderInfo D
  blocks : List (Block D F)

namespace Segment

/-- The two numbers in its name. -/
def key (s : Segment D F) : ℕ × ℕ := (s.generation, s.index)

/-- Its file's name. -/
def name (stem : Bytes) (s : Segment D F) : Bytes := segmentName stem s.generation s.index

/-- Its file. -/
def file (nums : LogNumbers D F) (mode : TextMode) (stem : Bytes) (config : SplLogConfig D)
    (s : Segment D F) : Bytes × Bytes :=
  (s.name stem, mode.translate (logText nums config s.info s.blocks))

end Segment

/-- The folder holds the given segments after the other files, and no name has been opened but
theirs, in their order. -/
structure FolderHolds (nums : LogNumbers D F) (mode : TextMode) (stem : Bytes)
    (config : SplLogConfig D) (others : List (Bytes × Bytes)) (segments : List (Segment D F))
    (folder : Folder) : Prop where
  files : folder.files = others ++ segments.map (·.file nums mode stem config)
  opened : folder.opened = segments.map (·.name stem)
  ordered : (segments.map Segment.key).Pairwise fun a b => segmentBefore a b = true

theorem segmentBefore_irrefl (a : ℕ × ℕ) : segmentBefore a a = false := by simp [segmentBefore]

variable {stem : Bytes} {config : SplLogConfig D} {others : List (Bytes × Bytes)}
  {segments : List (Segment D F)} {folder : Folder}

section

variable (h : FolderHolds nums mode stem config others segments folder)
  (hothers : ∀ f ∈ others, parseGenSeg f.1 stem = none)

include h hothers

theorem FolderHolds.name_notMem {g i : ℕ}
    (hnew : ∀ s ∈ segments, segmentBefore s.key (g, i) = true) :
    segmentName stem g i ∉ folder.files.map (·.1) := by
  intro hmem
  obtain ⟨f, hf, hname⟩ := List.mem_map.mp hmem
  rw [h.files, List.mem_append, List.mem_map] at hf
  rcases hf with hf | ⟨s, hs, rfl⟩
  · have hnone := hothers f hf
    rw [hname, parseGenSeg_segmentName] at hnone
    cases hnone
  · have hbefore := hnew s hs
    rw [Segment.key, segmentName_inj hname, segmentBefore_irrefl] at hbefore
    cases hbefore

omit h hothers in
/-- Text written through the stream of the last file goes to that file. -/
theorem Folder.append_last {rest : List (Bytes × Bytes)} {name content : Bytes}
    (hfiles : folder.files = rest ++ [(name, content)]) (hrest : name ∉ rest.map (·.1))
    (text : Bytes) :
    (folder.append mode name text).files = rest ++ [(name, content ++ mode.translate text)] := by
  have hsame : (rest.map fun f => if f.1 = name then (f.1, f.2 ++ mode.translate text) else f) =
      rest := by
    refine (List.map_congr_left fun f hf => if_neg fun heq => ?_).trans (List.map_id' rest)
    exact hrest (List.mem_map.mpr ⟨f, hf, heq⟩)
  rw [Folder.append, hfiles, List.map_append, hsame]
  show rest ++ [if name = name then _ else _] = _
  rw [if_pos rfl]

theorem FolderHolds.openSegment {w : SplLogWriter D}
    (hstem : w.stem = stem) (hconfig : w.config = config)
    (hnew : ∀ s ∈ segments, segmentBefore s.key (w.logGeneration, w.segmentIndex) = true) :
    FolderHolds nums mode stem config others
      (segments ++ [⟨w.logGeneration, w.segmentIndex, w.info, []⟩])
      (w.openSegment nums mode folder).2 := by
  have hfresh := h.name_notMem hothers hnew
  have hopen : (folder.openTrunc (segmentName stem w.logGeneration w.segmentIndex)).files =
      folder.files ++ [(segmentName stem w.logGeneration w.segmentIndex, [])] := by
    rw [Folder.openTrunc, if_neg hfresh]
  rw [SplLogWriter.openSegment, hstem, hconfig]
  refine ⟨?_, ?_, ?_⟩
  · rw [Folder.append_last hopen hfresh, h.files, List.map_append, List.append_assoc, List.nil_append]
    show _ = others ++ (_ ++ [(_, mode.translate (logText nums config w.info []))])
    rw [logText, List.flatMap_nil, List.append_nil]
    rfl
  · rw [List.map_append]
    exact congrArg (· ++ _) h.opened
  · rw [List.map_append]
    refine List.pairwise_append.mpr ⟨h.ordered, List.pairwise_singleton _ _, fun a ha b hb => ?_⟩
    obtain ⟨s, hs, rfl⟩ := List.mem_map.mp ha
    rw [List.map_singleton, List.mem_singleton] at hb
    exact hb ▸ hnew s hs

end

theorem FolderHolds.append {cur : Segment D F}
    (h : FolderHolds nums mode stem config others (segments ++ [cur]) folder)
    (hothers : ∀ f ∈ others, parseGenSeg f.1 stem = none) (b : Block D F) :
    FolderHolds nums mode stem config others
      (segments ++ [{ cur with blocks := cur.blocks ++ [b] }])
      (folder.append mode (cur.name stem) (logRow nums b config.referenceOffsetDb)) := by
  have hprev : FolderHolds nums mode stem config others segments
      { files := others ++ segments.map (·.file nums mode stem config)
        opened := segments.map (·.name stem) } :=
    ⟨rfl, rfl, h.ordered.sublist ((List.sublist_append_left _ _).map _)⟩
  have hnew : ∀ s ∈ segments, segmentBefore s.key (cur.generation, cur.index) = true := by
    intro s hs
    have hpair := h.ordered
    rw [List.map_append] at hpair
    exact (List.pairwise_append.mp hpair).2.2 _ (List.mem_map_of_mem hs) _
      (List.mem_singleton_self _)
  have hfiles : folder.files = (others ++ segments.map (·.file nums mode stem config)) ++
      [cur.file nums mode stem config] := by
    rw [h.files, List.map_append, List.append_assoc]
    rfl
  refine ⟨?_, ?_, ?_⟩
  · rw [Folder.append_last hfiles (hprev.name_notMem hothers hnew), List.map_append,
      List.append_assoc, ← mode.translate_append]
    show _ = others ++ (_ ++ [(_, mode.translate (logText nums config cur.info (_ ++ [b])))])
    rw [logText, logText, List.flatMap_append, List.flatMap_singleton, List.append_assoc _ _ (logRow _ _ _)]
    rfl
  · rw [show (folder.append mode (cur.name stem) _).opened = folder.opened from rfl, h.opened,
      List.map_append, List.map_append]
    rfl
  · have hpair := h.ordered
    rw [List.map_append] at hpair ⊢
    exact hpair

/-! ### Runs -/

theorem segmentBefore_iff {a b : ℕ × ℕ} :
    segmentBefore a b = true ↔ a.1 < b.1 ∨ a.1 = b.1 ∧ a.2 < b.2 := by
  rw [segmentBefore]
  split
  · rename_i hne
    simp [hne]
  · rename_i heq
    simp [not_not.mp heq]

theorem segmentBefore_trans {a b c : ℕ × ℕ} (hab : segmentBefore a b = true)
    (hbc : segmentBefore b c = true) : segmentBefore a c = true := by
  rw [segmentBefore_iff] at *
  omega

/-- The state of a run: the segments that are finished and the one being written. -/
structure WriterInv (nums : LogNumbers D F) (mode : TextMode) (channel : ℤ)
    (others : List (Bytes × Bytes)) (run : WriterRun D F) (done : List (Segment D F))
    (cur : Segment D F) : Prop where
  stem : run.writer.stem = channelStem channel
  current : cur.generation = run.writer.logGeneration ∧ cur.index = run.writer.segmentIndex ∧
    cur.info = run.writer.info
  stream : run.writer.stream = cur.name (channelStem channel)
  holds : FolderHolds nums mode (channelStem channel) run.writer.config others (done ++ [cur])
    run.folder
  written : run.written = (done ++ [cur]).flatMap (·.blocks)

/-- The segment being written has the greatest numbers. -/
theorem FolderHolds.before_of_last {done : List (Segment D F)} {cur : Segment D F}
    (h : FolderHolds nums mode stem config others (done ++ [cur]) folder) {key : ℕ × ℕ}
    (hcur : segmentBefore cur.key key = true) : ∀ s ∈ done ++ [cur], segmentBefore s.key key = true := by
  have hpair := h.ordered
  rw [List.map_append] at hpair
  intro s hs
  rcases List.mem_append.mp hs with hs | hs
  · exact segmentBefore_trans ((List.pairwise_append.mp hpair).2.2 _ (List.mem_map_of_mem hs) _
      (List.mem_singleton_self _)) hcur
  · rw [List.mem_singleton.mp hs]
    exact hcur

variable {channel : ℤ} {run : WriterRun D F} {done : List (Segment D F)} {cur : Segment D F}

section

variable (h : WriterInv nums mode channel others run done cur)
  (hothers : ∀ f ∈ others, parseGenSeg f.1 (channelStem channel) = none)

include h hothers

theorem WriterInv.openSegment {w : SplLogWriter D}
    (hstem : w.stem = run.writer.stem) (hconfig : w.config = run.writer.config)
    (hkey : segmentBefore cur.key (w.logGeneration, w.segmentIndex) = true) :
    WriterInv nums mode channel others
      ⟨(w.openSegment nums mode run.folder).1, (w.openSegment nums mode run.folder).2, run.written⟩
      (done ++ [cur]) ⟨w.logGeneration, w.segmentIndex, w.info, []⟩ where
  stem := hstem.trans h.stem
  current := ⟨rfl, rfl, rfl⟩
  stream := congrArg (fun stem => segmentName stem w.logGeneration w.segmentIndex)
    (hstem.trans h.stem)
  holds := by
    have hopen := h.holds.openSegment hothers (hstem.trans h.stem) hconfig
      (h.holds.before_of_last hkey)
    rw [← hconfig] at hopen
    exact hopen
  written := by
    rw [List.flatMap_append, List.flatMap_singleton, List.append_nil]
    exact h.written

omit h hothers in
theorem WriterInv.start (hothers : ∀ f ∈ others, parseGenSeg f.1 (channelStem channel) = none)
    (config : SplLogConfig D) (info : SplLogHeaderInfo D) :
    WriterInv nums mode channel others
      (.start nums mode channel config info others : WriterRun D F) [] ⟨0, 0, info, []⟩ := by
  have hempty : FolderHolds nums mode (channelStem channel) config others
      ([] : List (Segment D F)) { files := others } :=
    ⟨(List.append_nil _).symm, rfl, List.Pairwise.nil⟩
  have hopen := hempty.openSegment hothers (w := { stem := channelStem channel, config, info }) rfl rfl
    (fun s hs => absurd hs List.not_mem_nil)
  exact ⟨rfl, ⟨rfl, rfl, rfl⟩, rfl, hopen, rfl⟩

/-- The rotation opens the next segment of the generation, or does nothing. -/
theorem WriterInv.rotate :
    ∃ done' cur', WriterInv nums mode channel others
      ⟨(run.writer.rotate nums mode run.folder).1, (run.writer.rotate nums mode run.folder).2,
        run.written⟩ done' cur' := by
  rw [SplLogWriter.rotate]
  split
  · refine ⟨_, _, h.openSegment hothers rfl rfl (segmentBefore_iff.mpr (.inr ⟨?_, ?_⟩))⟩
    · exact h.current.1
    · exact h.current.2.1 ▸ Nat.lt_succ_self _
  · exact ⟨done, cur, h⟩

theorem WriterInv.next (a : WriterAct D F) :
    ∃ done' cur', WriterInv nums mode channel others (run.next nums mode a) done' cur' := by
  cases a with
  | write b =>
    obtain ⟨done', cur', h'⟩ := h.rotate hothers
    refine ⟨done', { cur' with blocks := cur'.blocks ++ [b] }, h'.stem, h'.current, h'.stream, ?_, ?_⟩
    · have hrow := h'.holds.append hothers b
      rw [← h'.stream] at hrow
      exact hrow
    · show run.written ++ [b] = _
      rw [show run.written = _ from h'.written, List.flatMap_append, List.flatMap_append,
        List.append_assoc]
      simp
  | reconfigure weighting detector =>
    rw [WriterRun.next, SplLogWriter.reconfigure]
    split
    · exact ⟨done, cur, h⟩
    · refine ⟨_, _, h.openSegment hothers rfl rfl (segmentBefore_iff.mpr (.inl ?_))⟩
      exact h.current.1 ▸ Nat.lt_succ_self _

end

/-! ### Reading the folder back -/

theorem FolderHolds.channelFiles
    (h : FolderHolds nums mode (channelStem channel) config others segments folder)
    (hothers : ∀ f ∈ others, parseGenSeg f.1 (channelStem channel) = none)
    {entries : List (Bytes × Bytes)} (hperm : entries.Perm folder.files) :
    channelFiles entries channel =
      segments.map fun s => (s.key, s.file nums mode (channelStem channel) config) := by
  have hmine : (segments.map (·.file nums mode (channelStem channel) config)).filterMap
      (fun f => (parseGenSeg f.1 (channelStem channel)).map fun gs => (gs, f)) =
      segments.map fun s => (s.key, s.file nums mode (channelStem channel) config) := by
    rw [List.filterMap_map, ← List.filterMap_eq_map]
    refine List.filterMap_congr fun s _ => ?_
    show (parseGenSeg (segmentName _ _ _) _).map _ = _
    rw [parseGenSeg_segmentName]
    rfl
  have htheirs : others.filterMap
      (fun f => (parseGenSeg f.1 (channelStem channel)).map fun gs => (gs, f)) = [] := by
    refine List.filterMap_eq_nil_iff.mpr fun f hf => ?_
    rw [hothers f hf]
    rfl
  have hfound := hperm.filterMap
    fun f => (parseGenSeg f.1 (channelStem channel)).map fun gs => (gs, f)
  rw [h.files, List.filterMap_append, htheirs, hmine, List.nil_append] at hfound
  have hsorted : (segments.map fun s =>
      (s.key, s.file nums mode (channelStem channel) config)).Pairwise
        fun a b => segmentBefore a.1 b.1 = true := by
    have hpair := h.ordered
    rw [List.pairwise_map] at hpair ⊢
    exact hpair
  have hle : ∀ {a b : ℕ × ℕ}, (!segmentBefore b a) = true ↔ segmentBefore a b = true ∨ a = b := by
    intro a b
    rw [Bool.not_eq_true', ← Bool.not_eq_true, segmentBefore_iff, segmentBefore_iff, Prod.ext_iff]
    omega
  refine @List.Perm.eq_of_pairwise _ (fun a b => (!segmentBefore b.1 a.1) = true) _ _ ?_ ?_ ?_
    ((List.mergeSort_perm _ _).trans hfound)
  · intro a b ha hb hab hba
    have ha' := hfound.subset (List.mem_mergeSort.mp ha)
    have hkey : a.1 = b.1 := by
      rw [hle] at hab hba
      rcases hab with hab | heq
      · rcases hba with hba | heq
        · rw [segmentBefore_iff] at hab hba
          omega
        · exact heq.symm
      · exact heq
    obtain ⟨s, hs, rfl⟩ := List.mem_map.mp ha'
    obtain ⟨t, ht, rfl⟩ := List.mem_map.mp hb
    have hnodup : (segments.map Segment.key).Nodup := h.ordered.imp fun hbefore heq => by
      rw [heq, segmentBefore_irrefl] at hbefore
      cases hbefore
    rw [List.inj_on_of_nodup_map hnodup hs ht hkey]
  · refine List.pairwise_mergeSort (fun a b c hab hbc => ?_) (fun a b => ?_) _
    · rw [hle] at *
      rcases hab with hab | hab
      · rcases hbc with hbc | hbc
        · exact .inl (segmentBefore_trans hab hbc)
        · exact .inl (hbc ▸ hab)
      · exact hab ▸ hbc
    · rw [Bool.or_eq_true, hle, hle, segmentBefore_iff, segmentBefore_iff, Prod.ext_iff, Prod.ext_iff]
      omega
  · exact hsorted.imp fun hbefore => hle.mpr (.inl hbefore)

theorem foldl_readFile {H : Type} (parseHeader : Bytes → Option H) (stem : Bytes)
    (config : SplLogConfig D) {segments : List (Segment D F)}
    (hfits : ∀ s ∈ segments, ∀ b ∈ s.blocks, b.Fits) (log : ChannelLog D F H) :
    let read := (segments.map fun s => (s.key, s.file nums mode stem config)).foldl
      (.readFile nums parseHeader) log
    read.blocks = log.blocks ++ segments.flatMap (·.blocks) ∧
      read.bytesDiscarded = log.bytesDiscarded := by
  induction segments generalizing log with
  | nil => exact ⟨(List.append_nil _).symm, rfl⟩
  | cons s segments ih =>
    obtain ⟨hs, hsegments⟩ := List.forall_mem_cons.mp hfits
    have hread : readLog nums (s.file nums mode stem config).2 = ⟨s.blocks, 0⟩ :=
      readLog_translate mode config s.info hs
    obtain ⟨hblocks, hdiscarded⟩ := ih hsegments
      (log.readFile nums parseHeader (s.key, s.file nums mode stem config))
    have hfile : (log.readFile nums parseHeader (s.key, s.file nums mode stem config)).blocks =
        log.blocks ++ s.blocks ∧
        (log.readFile nums parseHeader (s.key, s.file nums mode stem config)).bytesDiscarded =
          log.bytesDiscarded := by
      rw [ChannelLog.readFile, hread]
      exact ⟨rfl, rfl⟩
    refine ⟨hblocks.trans ?_, hdiscarded.trans hfile.2⟩
    rw [hfile.1, List.flatMap_cons, List.append_assoc]

theorem exists_writerInv (h : (writerRuns nums mode channel).Reachable run) :
    ∃ others done cur, WriterInv nums mode channel others run done cur ∧
      ∀ f ∈ others, parseGenSeg f.1 (channelStem channel) = none := by
  refine h.invariant (fun run => ∃ others done cur, WriterInv nums mode channel others run done cur ∧
    ∀ f ∈ others, parseGenSeg f.1 (channelStem channel) = none) ?_ ?_
  · rintro _ ⟨config, info, others, hothers, rfl⟩
    exact ⟨others, _, _, .start hothers config info, hothers⟩
  · rintro run a _ ⟨others, done, cur, hinv, hothers⟩ ⟨⟩
    obtain ⟨done', cur', hinv'⟩ := hinv.next hothers a
    exact ⟨others, done', cur', hinv', hothers⟩

/-- **Headline.** After any writes and reconfigurations the reader finds exactly what was written, in
the order in which it was written, and throws nothing away; and no name has been opened for writing
twice. The listing may be in any order and the folder may hold other files. -/
theorem readChannelLog_of_reachable {H : Type} (parseHeader : Bytes → Option H)
    (h : (writerRuns nums mode channel).Reachable run) (hfits : ∀ b ∈ run.written, b.Fits)
    {entries : List (Bytes × Bytes)} (hperm : entries.Perm run.folder.files) :
    (readChannelLog nums parseHeader entries channel).blocks = run.written ∧
      (readChannelLog nums parseHeader entries channel).bytesDiscarded = 0 ∧
      run.folder.opened.Nodup := by
  obtain ⟨others, done, cur, hinv, hothers⟩ := exists_writerInv h
  have hblocks : ∀ s ∈ done ++ [cur], ∀ b ∈ s.blocks, b.Fits := fun s hs b hb =>
    hfits b (hinv.written ▸ List.mem_flatMap.mpr ⟨s, hs, hb⟩)
  obtain ⟨hread, hdiscarded⟩ := foldl_readFile parseHeader (channelStem channel) run.writer.config
    hblocks {}
  rw [readChannelLog, hinv.holds.channelFiles hothers hperm]
  refine ⟨hread.trans ?_, hdiscarded, ?_⟩
  · rw [List.nil_append, hinv.written]
  · rw [hinv.holds.opened]
    have hnames := hinv.holds.ordered
    rw [List.pairwise_map] at hnames
    refine List.pairwise_map.mpr (hnames.imp fun {s t} hbefore heq => ?_)
    rw [Segment.key, segmentName_inj heq, ← Segment.key, segmentBefore_irrefl] at hbefore
    cases hbefore

end

/-- One block for each segment, and a change of the detector after the second. -/
def rotatingActs : List (WriterAct ℚ ℚ) :=
  [.write (flaggedBlock 0), .write (flaggedBlock 1), .reconfigure .A .slow, .write (flaggedBlock 2),
    .reconfigure .A .slow]

/-- The log those acts leave beside a session header, in text mode with carriage returns. -/
def rotatingRun : WriterRun ℚ ℚ :=
  rotatingActs.foldl (WriterRun.next fractionLog .crlf)
    (.start fractionLog .crlf 1 (plainLogConfig 1) { sampleRate := 48000 }
      [(bytes "session.header.txt", [])])

theorem readChannelLog_rotatingRun :
    (readChannelLog fractionLog (fun _ => (none : Option Unit)) rotatingRun.folder.files.reverse
      1).blocks = [flaggedBlock 0, flaggedBlock 1, flaggedBlock 2] := by
  have hstart : (writerRuns fractionLog .crlf 1).Reachable (.start fractionLog .crlf 1
      (plainLogConfig 1) { sampleRate := 48000 } [(bytes "session.header.txt", [])]) :=
    .init ⟨_, _, _, by decide, rfl⟩
  have hreach : (writerRuns fractionLog .crlf 1).Reachable rotatingRun :=
    hstart.exec (show (writerRuns fractionLog .crlf 1).exec _ rotatingActs = some rotatingRun from
      rfl)
  exact (readChannelLog_of_reachable (fun _ => (none : Option Unit)) hreach (by decide +kernel)
    (List.reverse_perm _)).1

end RtaTool
