import RtaTool.Export.SplSessionLogs

/-!
# Reading a session's folder

What `readChannelLog` finds of a channel in a folder that any number of writers have written into, in
whatever order the folder is listed.

A crash can leave the last row of a log cut anywhere, its newline included: `TornRows` says which
bytes may be missing. The row is lost, and nothing else.

## Main definitions

* `TornRows`, `cutFile` -- the folder as a crash has left it
* `ChannelWriter.onDisk` -- the rows that are whole, with what each was logged under
* `labelledRows` -- the rows of a channel's files, with what the header of each file says

## Main results

* `channelFiles_session` -- the files a channel's reader takes
* `ChannelHolds.readChannelLog` -- **Headline.** What it makes of them
-/

namespace RtaTool

section

variable {D F : Type} {nums : LogNumbers D F} {mode : TextMode} {s : SessionLogs D F}

/-! ### Torn rows -/

/-- Bytes that may be missing at the end of a file: some of the last row of a log that was being
written. -/
def TornRows (nums : LogNumbers D F) (mode : TextMode) (s : SessionLogs D F)
    (missing : Bytes → ℕ) : Prop :=
  ∀ name, missing name ≠ 0 → ∃ channel w block, s.writers channel = some w ∧
    name = w.writer.stream ∧ 0 < w.writer.blocksInSegment ∧ w.written.getLast? = some block ∧
    missing name ≤ (mode.translate (logRow nums block w.config.referenceOffsetDb)).length

/-- A file less what is missing at its end. -/
def cutFile (missing : Bytes → ℕ) (f : Bytes × Bytes) : Bytes × Bytes :=
  (f.1, f.2.take (f.2.length - missing f.1))

/-- The blocks of a channel whose rows are whole, each with what it was logged under. -/
def ChannelWriter.onDisk (missing : Bytes → ℕ) (w : ChannelWriter D F) :
    List (LogSettings × Block D F) :=
  if missing w.writer.stream = 0 then loggedUnder w.info.settings w.calls
  else (loggedUnder w.info.settings w.calls).dropLast

/-- The header of a channel's last segment. -/
def ChannelWriter.lastInfo (w : ChannelWriter D F) : SplLogHeaderInfo D :=
  w.info.under (settingsAfter w.info.settings w.calls)

/-- The numbers a channel's writer has been given are within their C++ types. -/
def ChannelWriter.Fits (w : ChannelWriter D F) : Prop :=
  w.info.Fits ∧ ∀ block ∈ w.written, block.Fits

instance (w : ChannelWriter D F) : Decidable w.Fits := inferInstanceAs (Decidable (_ ∧ _))

theorem translate_logRow (mode : TextMode) (b : Block D F) (off : D) :
    mode.translate (logRow nums b off) =
      mode.line (rowLine nums b off) ++ [sessionFormat.newline] := by
  have h := @TextMode.translate_joinLines mode [rowLine nums b off] fun line hline => by
    rw [List.mem_singleton.mp hline]
    exact fun h => (mem_rowLine h).1 rfl
  rw [logRow]
  simpa [joinLines] using h

theorem newline_notMem_tornRow (mode : TextMode) (b : Block D F) (off : D) {n : ℕ} (hn : n ≠ 0) :
    sessionFormat.newline ∉ (mode.translate (logRow nums b off)).take
      ((mode.translate (logRow nums b off)).length - n) := by
  have hline : sessionFormat.newline ∉ mode.line (rowLine nums b off) := by
    have hrow : sessionFormat.newline ∉ rowLine nums b off := fun h => (mem_rowLine h).1 rfl
    cases mode with
    | lf => exact hrow
    | crlf => exact List.mem_append.not.mpr (not_or.mpr ⟨hrow, by decide⟩)
  rw [translate_logRow, List.length_append, List.length_singleton, List.take_append_of_le_length
    (by omega)]
  exact fun h => hline (List.mem_of_mem_take h)

variable {missing : Bytes → ℕ}

theorem cutFile_of_eq_zero {f : Bytes × Bytes} (h : missing f.1 = 0) :
    cutFile missing f = f := by
  rw [cutFile, h, Nat.sub_zero, List.take_length]

/-- A log on disk, perhaps with a fragment after it: its blocks, and its header as it was stamped. -/
theorem read_logText (mode : TextMode) (config : SplLogConfig D) {info : SplLogHeaderInfo D}
    (hinfo : info.Fits) {blocks : List (Block D F)} (hfits : ∀ b ∈ blocks, b.Fits) {rest : Bytes}
    (hrest : sessionFormat.newline ∉ rest) (zero : D) :
    (readLog nums (mode.translate (logText nums config info blocks) ++ rest)).entries = blocks ∧
      parseLogHeader nums zero (mode.translate (logText nums config info blocks) ++ rest) =
        some (headerWritten config info) := by
  have htext : mode.translate (logText nums config info blocks) ++ rest =
      mode.translate (logHeader nums config info ++ csvHeaderRow) ++
        (mode.translate ([sessionFormat.newline] ++
          blocks.flatMap fun b => logRow nums b config.referenceOffsetDb) ++ rest) := by
    rw [← List.append_assoc, ← mode.translate_append, logText]
    simp only [List.append_assoc]
  refine ⟨by rw [readLog_translate_append mode config info hfits hrest], ?_⟩
  refine parseLogHeader_of_le mode config hinfo ⟨[], (List.append_nil _).trans htext⟩ ?_
  rw [htext, mode.translate_append, List.length_append, List.length_append]
  omega

theorem logText_concat (config : SplLogConfig D) (info : SplLogHeaderInfo D)
    (blocks : List (Block D F)) (b : Block D F) :
    logText nums config info (blocks ++ [b]) =
      logText nums config info blocks ++ logRow nums b config.referenceOffsetDb := by
  rw [logText, logText, List.flatMap_append, List.flatMap_singleton, ← List.append_assoc]

theorem read_tornLog (mode : TextMode) (config : SplLogConfig D) {info : SplLogHeaderInfo D}
    (hinfo : info.Fits) {blocks : List (Block D F)} {b : Block D F}
    (hfits : ∀ b ∈ blocks, b.Fits) (zero : D) {n : ℕ} (hn : n ≠ 0)
    (hle : n ≤ (mode.translate (logRow nums b config.referenceOffsetDb)).length) :
    let content := mode.translate (logText nums config info (blocks ++ [b]))
    (readLog nums (content.take (content.length - n))).entries = blocks ∧
      parseLogHeader nums zero (content.take (content.length - n)) =
        some (headerWritten config info) := by
  intro content
  have hcut : content.take (content.length - n) =
      mode.translate (logText nums config info blocks) ++
        (mode.translate (logRow nums b config.referenceOffsetDb)).take
          ((mode.translate (logRow nums b config.referenceOffsetDb)).length - n) := by
    dsimp only [content]
    rw [logText_concat, mode.translate_append, List.length_append, Nat.add_sub_assoc hle,
      List.take_length_add_append]
  rw [hcut]
  exact read_logText mode config hinfo hfits (newline_notMem_tornRow mode b _ hn) zero

/-! ### Reading a channel -/

/-- The order of the files is that of their names. -/
theorem channelFiles_cut (missing : Bytes → ℕ) (entries : List (Bytes × Bytes)) (channel : ℤ) :
    channelFiles (entries.map (cutFile missing)) channel =
      (channelFiles entries channel).map fun e => (e.1, cutFile missing e.2) := by
  have hsort := fun files : List ((ℕ × ℕ) × Bytes × Bytes) =>
    @List.map_mergeSort _ _ (fun a b => !segmentBefore b.1 a.1) (fun a b => !segmentBefore b.1 a.1)
      (fun e : (ℕ × ℕ) × Bytes × Bytes => (e.1, cutFile missing e.2)) files fun a _ b _ => rfl
  rw [channelFiles, channelFiles, hsort, List.filterMap_map, List.map_filterMap]
  congr 2
  funext f
  rw [Function.comp_apply, Option.map_map]
  rfl

/-- A channel's reader takes the channel's part of the folder. -/
theorem channelFiles_filter (entries : List (Bytes × Bytes)) (channel : ℤ) :
    channelFiles (entries.filter fun f => ownedBy channel f.1) channel =
      channelFiles entries channel := by
  rw [channelFiles, channelFiles, List.filterMap_filter]
  congr 2
  funext f
  split
  · rfl
  · rename_i hno
    rw [ownedBy, Bool.not_eq_true, Option.isSome_eq_false_iff, Option.isNone_iff_eq_none] at hno
    rw [hno]
    rfl

/-- What a channel's reader finds: the segments in order, with the last one perhaps torn. -/
structure ChannelHolds (nums : LogNumbers D F) (mode : TextMode) (channel : ℤ)
    (missing : Bytes → ℕ) (files : List ((ℕ × ℕ) × Bytes × Bytes)) (w : ChannelWriter D F)
    (done : List (Segment D F)) (cur : Segment D F) : Prop where
  files_eq : files = (done ++ [cur]).map fun seg =>
    (seg.key, cutFile missing (seg.file nums mode (channelStem channel) w.config))
  whole : ∀ seg ∈ done, missing (seg.name (channelStem channel)) = 0
  stream : w.writer.stream = cur.name (channelStem channel)
  logged : ((done ++ [cur]).flatMap fun seg => seg.blocks.map fun b => (seg.info.settings, b)) =
    loggedUnder w.info.settings w.calls
  written : w.written = (done ++ [cur]).flatMap (·.blocks)
  infos : ∀ seg ∈ done ++ [cur], seg.info = w.info.under seg.info.settings
  last : cur.info = w.lastInfo
  torn : missing w.writer.stream ≠ 0 → ∃ blocks b, cur.blocks = blocks ++ [b] ∧
    missing w.writer.stream ≤ (mode.translate (logRow nums b w.config.referenceOffsetDb)).length

theorem channelFiles_session_none (h : SessionLogsInv nums mode s) {channel : ℤ}
    (hw : s.writers channel = none) {entries : List (Bytes × Bytes)}
    (hperm : entries.Perm s.folder.files) (missing : Bytes → ℕ) :
    channelFiles (entries.map (cutFile missing)) channel = [] := by
  have hpart : s.folder.part (ownedBy channel) = { files := [] } := by
    have hmine := h channel
    rwa [hw] at hmine
  have hfilter := hperm.filter fun f => ownedBy channel f.1
  rw [show s.folder.files.filter _ = [] from congrArg Folder.files hpart, List.perm_nil] at hfilter
  rw [channelFiles_cut, ← channelFiles_filter, hfilter, channelFiles, List.filterMap_nil,
    List.mergeSort_nil, List.map_nil]

variable {w : ChannelWriter D F}

variable {done : List (Segment D F)} {files : List ((ℕ × ℕ) × Bytes × Bytes)} {channel : ℤ}
  {cur : Segment D F} {entries : List (Bytes × Bytes)}

/-- The files of a channel with one. -/
theorem channelFiles_session (h : SessionLogsInv nums mode s) (htorn : TornRows nums mode s missing)
    (hw : s.writers channel = some w)
    (hperm : entries.Perm s.folder.files) :
    ∃ done cur, ChannelHolds nums mode channel missing
      (channelFiles (entries.map (cutFile missing)) channel) w done cur := by
  have hsolo : ∀ {c : ℤ} {v : ChannelWriter D F}, s.writers c = some v →
      (⟨v.writer, s.folder.part (ownedBy c), v.written⟩ : WriterRun D F) =
        soloRun nums mode c v.config v.info v.calls := by
    intro c v hv
    have hmine := h c
    rwa [hv] at hmine
  obtain ⟨done, cur, hrun⟩ := @exists_loggedInv D F nums mode channel w.config w.info w.calls
  rw [← hsolo hw] at hrun
  have hstream : w.writer.stream = cur.name (channelStem channel) := hrun.holds.stream
  have hfiles : FolderHolds nums mode (channelStem channel) w.config [] (done ++ [cur])
      (s.folder.part (ownedBy channel)) := by
    have hholds := hrun.holds.holds
    rwa [hrun.config_eq] at hholds
  refine ⟨done, cur, ?_, ?_, hstream, hrun.logged, hrun.holds.written, hrun.infos,
    hrun.holds.current.2.2.trans hrun.info_eq, ?_⟩
  · rw [channelFiles_cut, ← channelFiles_filter,
      hfiles.channelFiles (fun f hf => absurd hf List.not_mem_nil)
        (hperm.filter fun f => ownedBy channel f.1), List.map_map]
    rfl
  · -- a name with bytes missing is the stream of its channel, and that is the last segment's
    intro seg hseg
    by_contra hne
    obtain ⟨other, v, b, hv, hname, -⟩ := htorn _ hne
    obtain ⟨-, g, i, hvstream⟩ := @soloRun_names D F nums mode other v.config v.info v.calls
    rw [← hsolo hv] at hvstream
    obtain ⟨rfl, -⟩ := segmentName_channelStem_inj (hname.trans hvstream)
    obtain rfl : w = v := Option.some.inj (hw.symm.trans hv)
    have hkey := segmentName_inj (hname.trans hstream)
    have hordered := hfiles.ordered
    rw [List.map_append] at hordered
    have hbefore := (List.pairwise_append.mp hordered).2.2 _ (List.mem_map_of_mem hseg) _
      (List.mem_singleton_self _)
    rw [Segment.key, Segment.key, hkey, segmentBefore_irrefl] at hbefore
    cases hbefore
  · intro hne
    obtain ⟨other, v, b, hv, hname, hpos, hlast, hle⟩ := htorn _ hne
    obtain ⟨-, g, i, hvstream⟩ := @soloRun_names D F nums mode other v.config v.info v.calls
    rw [← hsolo hv] at hvstream
    obtain ⟨rfl, -⟩ := segmentName_channelStem_inj (hstream.symm.trans (hname.trans hvstream))
    obtain rfl : w = v := Option.some.inj (hw.symm.trans hv)
    have hrows : cur.blocks ≠ [] := by
      rw [← List.length_pos_iff, hrun.rows]
      exact hpos
    obtain ⟨blocks, b', hblocks⟩ := (List.eq_nil_or_concat' cur.blocks).resolve_left hrows
    refine ⟨blocks, b', hblocks, ?_⟩
    have hwritten : w.written = (done ++ [cur]).flatMap (·.blocks) := hrun.holds.written
    rw [hwritten, List.flatMap_append, List.flatMap_singleton, hblocks, ← List.append_assoc,
      List.getLast?_concat, Option.some.injEq] at hlast
    rwa [hlast]

/-- The rows a segment has on disk. -/
def wholeRows (missing : Bytes → ℕ) (stem : Bytes) (seg : Segment D F) : List (Block D F) :=
  if missing (seg.name stem) = 0 then seg.blocks else seg.blocks.dropLast

theorem ChannelHolds.read
    (h : ChannelHolds nums mode channel missing files w done cur) (hfits : w.Fits) (zero : D)
    {seg : Segment D F} (hseg : seg ∈ done ++ [cur]) :
    (readLog nums (cutFile missing
        (seg.file nums mode (channelStem channel) w.config)).2).entries =
        wholeRows missing (channelStem channel) seg ∧
      parseLogHeader nums zero (cutFile missing
        (seg.file nums mode (channelStem channel) w.config)).2 =
        some (headerWritten w.config seg.info) := by
  have hinfo : seg.info.Fits := by
    rw [h.infos seg hseg]
    exact hfits.1
  have hblocks : ∀ b ∈ seg.blocks, b.Fits := fun b hb =>
    hfits.2 b (h.written ▸ List.mem_flatMap.mpr ⟨seg, hseg, hb⟩)
  by_cases hmissing : missing (seg.name (channelStem channel)) = 0
  · have hread := @read_logText D F nums mode w.config seg.info hinfo seg.blocks hblocks []
      List.not_mem_nil zero
    rw [List.append_nil] at hread
    rw [cutFile_of_eq_zero hmissing, wholeRows, if_pos hmissing]
    exact hread
  · obtain rfl : seg = cur := by
      rcases List.mem_append.mp hseg with hdone | hcur
      · exact absurd (h.whole seg hdone) hmissing
      · exact List.mem_singleton.mp hcur
    obtain ⟨blocks, b, hrows, hle⟩ := h.torn (h.stream ▸ hmissing)
    have hread := @read_tornLog D F nums mode w.config seg.info hinfo blocks b
      (fun b' hb' => hblocks b' (hrows ▸ List.mem_append_left _ hb')) zero _
      (h.stream ▸ hmissing) hle
    rw [wholeRows, if_neg hmissing, hrows, List.dropLast_concat]
    rw [← hrows, h.stream] at hread
    exact hread

/-- The rows on disk are those whose rows are whole, with what the calls said. -/
theorem ChannelHolds.onDisk (h : ChannelHolds nums mode channel missing files w done cur) :
    ((done ++ [cur]).flatMap fun seg =>
      (wholeRows missing (channelStem channel) seg).map fun b => (seg.info.settings, b)) =
      w.onDisk missing := by
  have hdone : (done.flatMap fun seg =>
      (wholeRows missing (channelStem channel) seg).map fun b => (seg.info.settings, b)) =
      done.flatMap fun seg => seg.blocks.map fun b => (seg.info.settings, b) :=
    List.flatMap_congr fun seg hseg => by rw [wholeRows, if_pos (h.whole seg hseg)]
  rw [ChannelWriter.onDisk, ← h.logged, List.flatMap_append, List.flatMap_append, hdone,
    List.flatMap_singleton, List.flatMap_singleton, wholeRows, h.stream]
  split
  · rfl
  · rename_i hmissing
    obtain ⟨blocks, b, hrows, -⟩ := h.torn (h.stream ▸ hmissing)
    rw [hrows, List.dropLast_concat, List.map_append, List.map_singleton, ← List.append_assoc,
      List.dropLast_concat]

/-- A channel's rows, each with the settings in the header of the file it is read from. -/
def labelledRows (nums : LogNumbers D F) (zero : D) (files : List ((ℕ × ℕ) × Bytes × Bytes)) :
    List (Option LogSettings × Block D F) :=
  files.flatMap fun f => (readLog nums f.2.2).entries.map fun b =>
    ((parseLogHeader nums zero f.2.2).map (·.info.settings), b)

theorem foldl_readFile_concat {H : Type} (parseHeader : Bytes → Option H)
    (files : List ((ℕ × ℕ) × Bytes × Bytes)) (file : (ℕ × ℕ) × Bytes × Bytes) {header : H}
    (hheader : parseHeader file.2.2 = some header) (log : ChannelLog D F H) :
    let read := (files ++ [file]).foldl (.readFile nums parseHeader) log
    read.blocks = log.blocks ++ (files ++ [file]).flatMap (fun f => (readLog nums f.2.2).entries) ∧
      read.segmentPaths = log.segmentPaths ++ (files ++ [file]).map (·.2.1) ∧
      read.header = some header := by
  induction files generalizing log with
  | nil =>
    refine ⟨?_, rfl, ?_⟩
    · rw [List.nil_append, List.flatMap_singleton]
      rfl
    · show (parseHeader file.2.2).or log.header = _
      rw [hheader]
      rfl
  | cons f files ih =>
    obtain ⟨hblocks, hpaths, hlast⟩ := ih (log.readFile nums parseHeader f)
    refine ⟨hblocks.trans ?_, hpaths.trans ?_, hlast⟩
    · rw [List.cons_append, List.flatMap_cons, ← List.append_assoc]
      rfl
    · exact List.append_assoc _ [f.2.1] _

/-- What a channel's reader returns: the rows on disk, under the last header; and the header of each
row's file names what the row was logged under. -/
theorem ChannelHolds.readChannelLog
    (h : ChannelHolds nums mode channel missing (channelFiles entries channel) w done cur)
    (hfits : w.Fits) (zero : D) :
    let log := readChannelLog nums (parseLogHeader nums zero) entries channel
    log.blocks = (w.onDisk missing).map (·.2) ∧ log.segmentPaths ≠ [] ∧
      log.header = some (headerWritten w.config w.lastInfo) ∧
      labelledRows nums zero (channelFiles entries channel) =
        (w.onDisk missing).map fun x => (some x.1, x.2) := by
  have hfiles := h.files_eq
  have hread := fun seg (hseg : seg ∈ done ++ [cur]) => h.read hfits zero hseg
  rw [List.map_append, List.map_singleton] at hfiles
  obtain ⟨hblocks, hpaths, hheader⟩ := @foldl_readFile_concat D F nums _ (parseLogHeader nums zero)
    (done.map fun seg => (seg.key, cutFile missing
      (seg.file nums mode (channelStem channel) w.config)))
    (cur.key, cutFile missing (cur.file nums mode (channelStem channel) w.config)) _
    (hread cur (List.mem_append_right _ (List.mem_singleton_self _))).2 {}
  rw [← hfiles] at hblocks hpaths hheader
  refine ⟨hblocks.trans ?_, ?_, hheader.trans (by rw [h.last]), ?_⟩
  · rw [List.nil_append, h.files_eq, List.flatMap_map, ← h.onDisk, List.map_flatMap]
    refine List.flatMap_congr fun seg hseg => (hread seg hseg).1.trans ?_
    rw [List.map_map]
    exact (List.map_id _).symm
  · intro hnil
    have hnames := hpaths.symm.trans hnil
    rw [hfiles] at hnames
    simp at hnames
  · rw [labelledRows, h.files_eq, List.flatMap_map, ← h.onDisk, List.map_flatMap]
    refine List.flatMap_congr fun seg hseg => ?_
    rw [(hread seg hseg).1, (hread seg hseg).2, List.map_map]
    rfl

end

end RtaTool
