import RtaTool.Export.SplLogHeaderParse
import RtaTool.Measure.SplSessionFolder

/-!
# The logs of a session in one folder

`SplLogPipeline` has one `SplLogWriter` for each logged channel, and all of them write into the
session's folder. Their calls interleave in any order. What a channel's reader finds there depends
on that channel's calls alone: the files it takes are those of a run of its writer in a folder of
its own (`SessionLogsInv`).

What a row was logged under is in its file's header. From the calls alone it is what `reconfigure`
was last called with (`loggedUnder`), and the two agree (`LoggedInv`).

## Main definitions

* `SessionLogs`, `sessionLogRuns` -- any calls of any channels' writers over one folder
* `loggedUnder`, `settingsAfter` -- what a list of calls logs, and under which settings

## Main results

* `SessionLogsInv.next` -- a channel's part of the folder is that of a run of its own
* `LoggedInv.next` -- the segments' headers say what the calls said
-/

namespace RtaTool

/-- The settings a header names and `reconfigure` changes. -/
structure LogSettings where
  weighting : WeightingType
  detector : TimeWeighting
  deriving DecidableEq

/-- The settings of a header. -/
def SplLogHeaderInfo.settings {D : Type} (info : SplLogHeaderInfo D) : LogSettings :=
  ⟨info.weighting, info.detector⟩

/-- The header under other settings. -/
def SplLogHeaderInfo.under {D : Type} (info : SplLogHeaderInfo D) (s : LogSettings) :
    SplLogHeaderInfo D :=
  { info with weighting := s.weighting, detector := s.detector }

section

variable {D F : Type}

/-- The settings in force after some calls. -/
def settingsAfter (s : LogSettings) : List (WriterAct D F) → LogSettings
  | [] => s
  | .write _ :: calls => settingsAfter s calls
  | .reconfigure weighting detector :: calls => settingsAfter ⟨weighting, detector⟩ calls

/-- The blocks some calls log, each with the settings it is logged under. -/
def loggedUnder (s : LogSettings) : List (WriterAct D F) → List (LogSettings × Block D F)
  | [] => []
  | .write block :: calls => (s, block) :: loggedUnder s calls
  | .reconfigure weighting detector :: calls => loggedUnder ⟨weighting, detector⟩ calls

theorem settingsAfter_append (s : LogSettings) (calls calls' : List (WriterAct D F)) :
    settingsAfter s (calls ++ calls') = settingsAfter (settingsAfter s calls) calls' := by
  induction calls generalizing s with
  | nil => rfl
  | cons a calls ih =>
    cases a with
    | write block => exact ih s
    | reconfigure weighting detector => exact ih _

theorem loggedUnder_append (s : LogSettings) (calls calls' : List (WriterAct D F)) :
    loggedUnder s (calls ++ calls') =
      loggedUnder s calls ++ loggedUnder (settingsAfter s calls) calls' := by
  induction calls generalizing s with
  | nil => rfl
  | cons a calls ih =>
    cases a with
    | write block => exact congrArg _ (ih s)
    | reconfigure weighting detector => exact ih _

/-! ### What a writer's headers say -/

variable (nums : LogNumbers D F) (mode : TextMode)

/-- A run of one channel's writer in a folder of its own. -/
def soloRun (channel : ℤ) (config : SplLogConfig D) (info : SplLogHeaderInfo D)
    (calls : List (WriterAct D F)) : WriterRun D F :=
  calls.foldl (.next nums mode) (.start nums mode channel config info [])

variable {nums mode}

/-- The segments of a run: their headers differ from the first one in the settings, and name those
their rows were logged under. -/
structure LoggedInv (nums : LogNumbers D F) (mode : TextMode) (channel : ℤ)
    (config : SplLogConfig D) (info : SplLogHeaderInfo D) (calls : List (WriterAct D F))
    (run : WriterRun D F) (done : List (Segment D F)) (cur : Segment D F) : Prop where
  holds : WriterInv nums mode channel [] run done cur
  config_eq : run.writer.config = config
  info_eq : run.writer.info = info.under (settingsAfter info.settings calls)
  infos : ∀ s ∈ done ++ [cur], s.info = info.under s.info.settings
  logged : ((done ++ [cur]).flatMap fun s => s.blocks.map fun b => (s.info.settings, b)) =
    loggedUnder info.settings calls
  rows : cur.blocks.length = run.writer.blocksInSegment

variable {channel : ℤ} {config : SplLogConfig D} {info : SplLogHeaderInfo D}
  {calls : List (WriterAct D F)} {run : WriterRun D F} {done : List (Segment D F)}
  {cur : Segment D F}

theorem LoggedInv.start :
    LoggedInv nums mode channel config info ([] : List (WriterAct D F))
      (.start nums mode channel config info []) [] ⟨0, 0, info, []⟩ where
  holds := .start (fun f hf => absurd hf List.not_mem_nil) config info
  config_eq := rfl
  info_eq := rfl
  infos := by
    intro s hs
    rw [List.nil_append, List.mem_singleton] at hs
    rw [hs]
    rfl
  logged := rfl
  rows := rfl

section

variable (h : LoggedInv nums mode channel config info calls run done cur)

include h

theorem LoggedInv.openSegment
    {calls' : List (WriterAct D F)} {w : SplLogWriter D} (hstem : w.stem = run.writer.stem)
    (hconfig : w.config = run.writer.config)
    (hkey : segmentBefore cur.key (w.logGeneration, w.segmentIndex) = true)
    (hinfo : w.info = info.under (settingsAfter info.settings calls'))
    (hlogged : loggedUnder info.settings calls' = loggedUnder info.settings calls) :
    LoggedInv nums mode channel config info calls'
      ⟨(w.openSegment nums mode run.folder).1, (w.openSegment nums mode run.folder).2, run.written⟩
      (done ++ [cur]) ⟨w.logGeneration, w.segmentIndex, w.info, []⟩ where
  holds := h.holds.openSegment (fun f hf => absurd hf List.not_mem_nil) hstem hconfig hkey
  config_eq := hconfig.trans h.config_eq
  info_eq := hinfo
  infos := by
    intro s hs
    rcases List.mem_append.mp hs with hs | hs
    · exact h.infos s hs
    · rw [List.mem_singleton.mp hs]
      dsimp only
      rw [hinfo]
      rfl
  logged := by
    rw [List.flatMap_append, h.logged, hlogged]
    exact List.append_nil _
  rows := rfl

theorem LoggedInv.rotate :
    ∃ done' cur', LoggedInv nums mode channel config info calls
      ⟨(run.writer.rotate nums mode run.folder).1, (run.writer.rotate nums mode run.folder).2,
        run.written⟩ done' cur' := by
  rw [SplLogWriter.rotate]
  split
  · refine ⟨_, _, h.openSegment rfl rfl (segmentBefore_iff.mpr (.inr ⟨?_, ?_⟩)) h.info_eq rfl⟩
    · exact h.holds.current.1
    · exact h.holds.current.2.1 ▸ Nat.lt_succ_self _
  · exact ⟨done, cur, h⟩

theorem LoggedInv.next (a : WriterAct D F) :
    ∃ done' cur', LoggedInv nums mode channel config info (calls ++ [a]) (run.next nums mode a)
      done' cur' := by
  cases a with
  | write b =>
    obtain ⟨done', cur', h'⟩ := h.rotate
    have hsettings : settingsAfter info.settings (calls ++ [.write b]) =
        settingsAfter info.settings calls :=
      settingsAfter_append _ _ _
    have hcur : cur'.info.settings = settingsAfter info.settings calls := by
      rw [h'.holds.current.2.2, h'.info_eq]
      rfl
    refine ⟨done', { cur' with blocks := cur'.blocks ++ [b] },
      ⟨h'.holds.stem, h'.holds.current, h'.holds.stream, ?_, ?_⟩, h'.config_eq, ?_, ?_, ?_, ?_⟩
    · have hrow := h'.holds.holds.append (fun f hf => absurd hf List.not_mem_nil) b
      rw [← h'.holds.stream] at hrow
      exact hrow
    · show run.written ++ [b] = _
      rw [show run.written = _ from h'.holds.written, List.flatMap_append, List.flatMap_append,
        List.append_assoc]
      simp
    · rw [hsettings]
      exact h'.info_eq
    · intro s hs
      rcases List.mem_append.mp hs with hs | hs
      · exact h'.infos s (List.mem_append_left _ hs)
      · rw [List.mem_singleton.mp hs]
        exact h'.infos cur' (List.mem_append_right _ (List.mem_singleton_self _))
    · rw [loggedUnder_append, ← h'.logged, List.flatMap_append, List.flatMap_append,
        List.append_assoc]
      simp [hcur, loggedUnder]
    · rw [List.length_append, h'.rows]
      rfl
  | reconfigure weighting detector =>
    have hsettings : settingsAfter info.settings (calls ++ [.reconfigure weighting detector]) =
        ⟨weighting, detector⟩ :=
      settingsAfter_append _ _ _
    have hlogged : loggedUnder info.settings (calls ++ [.reconfigure weighting detector]) =
        loggedUnder info.settings calls := by
      rw [loggedUnder_append]
      exact List.append_nil _
    rw [WriterRun.next, SplLogWriter.reconfigure]
    split
    · rename_i hsame
      refine ⟨done, cur, h.holds, h.config_eq, ?_, h.infos, h.logged.trans hlogged.symm, h.rows⟩
      rw [hsettings, hsame.1, hsame.2, h.info_eq]
      rfl
    · refine ⟨_, _, h.openSegment rfl rfl (segmentBefore_iff.mpr (.inl ?_)) ?_ hlogged⟩
      · exact h.holds.current.1 ▸ Nat.lt_succ_self _
      · rw [hsettings, h.info_eq]
        rfl

end

theorem exists_loggedInv (channel : ℤ) (config : SplLogConfig D) (info : SplLogHeaderInfo D)
    (calls : List (WriterAct D F)) :
    ∃ done cur, LoggedInv nums mode channel config info calls
      (soloRun nums mode channel config info calls) done cur := by
  induction calls using List.reverseRecOn with
  | nil => exact ⟨_, _, .start⟩
  | append_singleton calls a ih =>
    obtain ⟨done, cur, h⟩ := ih
    rw [soloRun, List.foldl_concat]
    exact h.next a

/-! ### A part of a folder -/

namespace Folder

/-- The files and openings with names of one kind. -/
def part (own : Bytes → Bool) (folder : Folder) : Folder where
  files := folder.files.filter fun f => own f.1
  opened := folder.opened.filter own

variable {own : Bytes → Bool} {name : Bytes} (folder : Folder)

variable {g : Bytes × Bytes → Bytes × Bytes}

theorem filter_files_map {own : Bytes → Bool}
    (hg : ∀ f, (g f).1 = f.1) (files : List (Bytes × Bytes)) :
    (files.map g).filter (fun f => own f.1) = (files.filter fun f => own f.1).map g := by
  rw [List.filter_map]
  congr 2
  funext f
  exact congrArg own (hg f)

theorem filter_files_map_of_not {own : Bytes → Bool} {name : Bytes} (hname : own name = false)
    (hg : ∀ f, (g f).1 = f.1)
    (hrest : ∀ f, f.1 ≠ name → g f = f) (files : List (Bytes × Bytes)) :
    (files.map g).filter (fun f => own f.1) = files.filter fun f => own f.1 := by
  rw [filter_files_map hg]
  refine (List.map_congr_left fun f hf => hrest f ?_).trans (List.map_id' _)
  rintro rfl
  rw [(List.mem_filter.mp hf).2] at hname
  cases hname

theorem openTrunc_fst (f : Bytes × Bytes) : (if f.1 = name then (name, []) else f).1 = f.1 := by
  split
  · exact Eq.symm ‹_›
  · rfl

theorem append_fst (text : Bytes) (f : Bytes × Bytes) :
    (if f.1 = name then (f.1, f.2 ++ text) else f).1 = f.1 := by
  split <;> rfl

theorem part_openTrunc (hname : own name = true) :
    (folder.openTrunc name).part own = (folder.part own).openTrunc name := by
  have hmem : name ∈ (folder.files.filter fun f => own f.1).map (·.1) ↔
      name ∈ folder.files.map (·.1) := by
    simp only [List.mem_map, List.mem_filter]
    constructor
    · rintro ⟨f, ⟨hf, -⟩, rfl⟩
      exact ⟨f, hf, rfl⟩
    · rintro ⟨f, hf, rfl⟩
      exact ⟨f, ⟨hf, hname⟩, rfl⟩
  rw [part, part, openTrunc, openTrunc]
  congr 1
  · dsimp only
    by_cases h : name ∈ folder.files.map (·.1)
    · rw [if_pos h, if_pos (hmem.mpr h), filter_files_map openTrunc_fst]
    · rw [if_neg h, if_neg (hmem.not.mpr h), List.filter_append]
      simp [hname]
  · rw [List.filter_append]
    simp [hname]

/-- A file of another kind leaves it alone. -/
theorem part_openTrunc_of_not (hname : own name = false) :
    (folder.openTrunc name).part own = folder.part own := by
  rw [part, part, openTrunc]
  congr 1
  · dsimp only
    split
    · exact filter_files_map_of_not hname openTrunc_fst (fun f hf => if_neg hf) _
    · rw [List.filter_append]
      simp [hname]
  · rw [List.filter_append]
    simp [hname]

theorem part_append (mode : TextMode) (text : Bytes) :
    (folder.append mode name text).part own = (folder.part own).append mode name text := by
  rw [part, part, append, append]
  congr 1
  exact filter_files_map (append_fst _) _

theorem part_append_of_not (hname : own name = false) (mode : TextMode) (text : Bytes) :
    (folder.append mode name text).part own = folder.part own := by
  rw [part, part, append]
  congr 1
  exact filter_files_map_of_not hname (append_fst _) (fun f hf => if_neg hf) _

end Folder

/-! ### The session -/

/-- The names of a channel's segments. -/
def ownedBy (channel : ℤ) (name : Bytes) : Bool := (parseGenSeg name (channelStem channel)).isSome

/-- A channel's writer, how it was made, and the calls it has had. -/
structure ChannelWriter (D F : Type) where
  config : SplLogConfig D
  info : SplLogHeaderInfo D
  writer : SplLogWriter D
  calls : List (WriterAct D F)
  written : List (Block D F)

/-- A folder and the writers that write into it. -/
structure SessionLogs (D F : Type) where
  folder : Folder
  writers : ℤ → Option (ChannelWriter D F)

/-- A channel's log is started, or its writer called. -/
inductive SessionLogAct (D F : Type)
  | start (channel : ℤ) (config : SplLogConfig D) (info : SplLogHeaderInfo D)
  | call (channel : ℤ) (act : WriterAct D F)

namespace SessionLogs

variable (nums : LogNumbers D F) (mode : TextMode)

/-- One start or call. A channel has one writer. -/
def step (s : SessionLogs D F) : SessionLogAct D F → Option (SessionLogs D F)
  | .start channel config info =>
    match s.writers channel with
    | some _ => none
    | none =>
      let r := SplLogWriter.make nums mode (channelStem channel) config info s.folder
      some ⟨r.2, Function.update s.writers channel (some ⟨config, info, r.1, [], []⟩)⟩
  | .call channel act =>
    match s.writers channel with
    | none => none
    | some w =>
      let run := (⟨w.writer, s.folder, w.written⟩ : WriterRun D F).next nums mode act
      some ⟨run.folder, Function.update s.writers channel
        (some { w with writer := run.writer, calls := w.calls ++ [act], written := run.written })⟩

end SessionLogs

/-- Any starts and calls, in a folder that at first holds no segment of any channel. -/
def sessionLogRuns (nums : LogNumbers D F) (mode : TextMode) :
    Machine (SessionLogs D F) (SessionLogAct D F) where
  init s := (∀ f ∈ s.folder.files, ∀ channel, ownedBy channel f.1 = false) ∧
    s.folder.opened = [] ∧ ∀ channel, s.writers channel = none
  step := SessionLogs.step nums mode

theorem ownedBy_segmentName (channel : ℤ) (g i : ℕ) :
    ownedBy channel (segmentName (channelStem channel) g i) = true := by
  rw [ownedBy, parseGenSeg_segmentName]
  rfl

theorem ownedBy_segmentName_of_ne {channel other : ℤ} (hne : channel ≠ other) (g i : ℕ) :
    ownedBy other (segmentName (channelStem channel) g i) = false := by
  have hdot : ∀ rest : Bytes, ∀ c ∈ (bytes ".gen" ++ rest).head?, isDigit c = false := by
    rintro rest c ⟨⟩
    rfl
  have hnone : afterMarker (channelStem other ++ bytes ".gen")
      (segmentName (channelStem channel) g i) = none := by
    rw [afterMarker, if_neg]
    intro hprefix
    obtain ⟨rest, hrest⟩ := List.isPrefixOf_iff_prefix.mp hprefix
    simp only [segmentName, channelStem, List.append_assoc] at hrest
    have hread := congrArg readDecimalInt (List.append_cancel_left hrest)
    rw [readDecimalInt_decimalInt _ _ (hdot _), readDecimalInt_decimalInt _ _ (hdot _)] at hread
    exact hne (congrArg Prod.fst (Option.some.inj hread)).symm
  rw [ownedBy, parseGenSeg, hnone]
  rfl

/-! ### A channel's part is a run of its own -/

/-- The run in a part of its folder. -/
def WriterRun.part (own : Bytes → Bool) (run : WriterRun D F) : WriterRun D F :=
  { run with folder := run.folder.part own }

section

variable {own : Bytes → Bool} {w : SplLogWriter D} {folder : Folder}

/-- Two results of a writer's call agree on the writer, and the second has the first one's part of the
folder. -/
def PartOf (own : Bytes → Bool) (r r' : SplLogWriter D × Folder) : Prop :=
  r.1 = r'.1 ∧ r.2.part own = r'.2

theorem openSegment_part (hown : own (segmentName w.stem w.logGeneration w.segmentIndex) = true) :
    PartOf own (w.openSegment nums mode folder) (w.openSegment nums mode (folder.part own)) := by
  refine ⟨rfl, ?_⟩
  rw [SplLogWriter.openSegment]
  dsimp only
  rw [Folder.part_append, Folder.part_openTrunc _ hown]
  rfl

theorem openSegment_part_of_not
    (hown : own (segmentName w.stem w.logGeneration w.segmentIndex) = false) :
    (w.openSegment nums mode folder).2.part own = folder.part own := by
  rw [SplLogWriter.openSegment]
  dsimp only
  rw [Folder.part_append_of_not _ hown, Folder.part_openTrunc_of_not _ hown]

section

variable (hnames : ∀ g i, own (segmentName w.stem g i) = true)

include hnames

theorem rotate_part :
    PartOf own (w.rotate nums mode folder) (w.rotate nums mode (folder.part own)) := by
  rw [SplLogWriter.rotate, SplLogWriter.rotate]
  split
  · exact openSegment_part (hnames _ _)
  · exact ⟨rfl, rfl⟩

theorem write_part (b : Block D F) :
    PartOf own (w.write nums mode folder b) (w.write nums mode (folder.part own) b) := by
  obtain ⟨hwriter, hfolder⟩ := @rotate_part D F nums mode own w folder hnames
  rw [SplLogWriter.write, SplLogWriter.write]
  dsimp only
  rw [← hwriter, ← hfolder]
  exact ⟨rfl, Folder.part_append _ mode _⟩

theorem reconfigure_part (weighting : WeightingType) (detector : TimeWeighting) :
    PartOf own (w.reconfigure nums mode folder weighting detector)
      (w.reconfigure nums mode (folder.part own) weighting detector) := by
  rw [SplLogWriter.reconfigure, SplLogWriter.reconfigure]
  split
  · exact ⟨rfl, rfl⟩
  · exact openSegment_part (hnames _ _)

end

theorem WriterRun.next_part (run : WriterRun D F) (a : WriterAct D F)
    (hnames : ∀ g i, own (segmentName run.writer.stem g i) = true) :
    (run.next nums mode a).part own = (run.part own).next nums mode a := by
  obtain ⟨w, folder, written⟩ := run
  cases a with
  | write b =>
    obtain ⟨hwriter, hfolder⟩ := @write_part D F nums mode own w folder hnames b
    simp only [WriterRun.next, WriterRun.part, hwriter, hfolder]
  | reconfigure weighting detector =>
    obtain ⟨hwriter, hfolder⟩ :=
      @reconfigure_part D F nums mode own w folder hnames weighting detector
    simp only [WriterRun.next, WriterRun.part, hwriter, hfolder]

theorem WriterRun.next_part_of_not (run : WriterRun D F) (a : WriterAct D F)
    (hnames : ∀ g i, own (segmentName run.writer.stem g i) = false)
    (hstream : own run.writer.stream = false) :
    (run.next nums mode a).folder.part own = run.folder.part own := by
  obtain ⟨w, folder, written⟩ := run
  cases a with
  | write b =>
    rw [WriterRun.next, SplLogWriter.write, SplLogWriter.rotate]
    dsimp only
    split
    · exact (Folder.part_append_of_not _ (hnames _ _) _ _).trans (openSegment_part_of_not (hnames _ _))
    · exact Folder.part_append_of_not _ hstream _ _
  | reconfigure weighting detector =>
    rw [WriterRun.next, SplLogWriter.reconfigure]
    dsimp only
    split
    · rfl
    · exact openSegment_part_of_not (hnames _ _)

end

/-- A folder is what a channel's writer has left in a folder of its own, if the channel has one. -/
def LeftBy (nums : LogNumbers D F) (mode : TextMode) (channel : ℤ) (folder : Folder) :
    Option (ChannelWriter D F) → Prop
  | none => folder = { files := [] }
  | some w => (⟨w.writer, folder, w.written⟩ : WriterRun D F) =
      soloRun nums mode channel w.config w.info w.calls

/-- Every channel's part of the folder is that of a run of its own. -/
def SessionLogsInv (nums : LogNumbers D F) (mode : TextMode) (s : SessionLogs D F) : Prop :=
  ∀ channel, LeftBy nums mode channel (s.folder.part (ownedBy channel)) (s.writers channel)

theorem soloRun_names (channel : ℤ) (config : SplLogConfig D) (info : SplLogHeaderInfo D)
    (calls : List (WriterAct D F)) :
    (soloRun nums mode channel config info calls).writer.stem = channelStem channel ∧
      ∃ g i, (soloRun nums mode channel config info calls).writer.stream =
        segmentName (channelStem channel) g i := by
  obtain ⟨done, cur, h⟩ := @exists_loggedInv D F nums mode channel config info calls
  exact ⟨h.holds.stem, _, _, h.holds.stream⟩

variable {s t : SessionLogs D F}

theorem SessionLogsInv.init (h : (sessionLogRuns nums mode).init s) : SessionLogsInv nums mode s := by
  obtain ⟨hfiles, hopened, hwriters⟩ := h
  intro channel
  have hnone : (s.folder.files.filter fun f => ownedBy channel f.1) = [] :=
    List.filter_eq_nil_iff.mpr fun f hf => by rw [hfiles f hf channel]; exact Bool.false_ne_true
  rw [hwriters channel, Folder.part, hnone, hopened]
  rfl

section

variable (h : SessionLogsInv nums mode s)

include h

variable {w : ChannelWriter D F}

theorem SessionLogsInv.update {channel : ℤ} {folder : Folder}
    (hmine : LeftBy nums mode channel (folder.part (ownedBy channel)) (some w))
    (hothers : ∀ other, channel ≠ other →
      folder.part (ownedBy other) = s.folder.part (ownedBy other)) :
    SessionLogsInv nums mode ⟨folder, Function.update s.writers channel (some w)⟩ := by
  intro other
  dsimp only
  rcases eq_or_ne channel other with rfl | hne
  · rw [Function.update_self]
    exact hmine
  · rw [Function.update_of_ne hne.symm, hothers other hne]
    exact h other

theorem SessionLogsInv.start {channel : ℤ} (config : SplLogConfig D)
    (info : SplLogHeaderInfo D) (hfree : s.writers channel = none) :
    let r := SplLogWriter.make nums mode (channelStem channel) config info s.folder
    SessionLogsInv nums mode
      ⟨r.2, Function.update s.writers channel (some ⟨config, info, r.1, [], []⟩)⟩ := by
  intro r
  have hpart : s.folder.part (ownedBy channel) = { files := [] } := by
    have hmine := h channel
    rwa [hfree] at hmine
  refine h.update ?_ fun other hne => openSegment_part_of_not (ownedBy_segmentName_of_ne hne 0 0)
  have hopen : r.2.part (ownedBy channel) = _ :=
    (openSegment_part (ownedBy_segmentName channel 0 0)).2
  rw [LeftBy, hopen, hpart]
  rfl

theorem SessionLogsInv.call {channel : ℤ} (hw : s.writers channel = some w) (act : WriterAct D F) :
    let run := (⟨w.writer, s.folder, w.written⟩ : WriterRun D F).next nums mode act
    SessionLogsInv nums mode ⟨run.folder, Function.update s.writers channel
      (some { w with writer := run.writer, calls := w.calls ++ [act], written := run.written })⟩ := by
  intro run
  have hsolo : (⟨w.writer, s.folder.part (ownedBy channel), w.written⟩ : WriterRun D F) =
      soloRun nums mode channel w.config w.info w.calls := by
    have hmine := h channel
    rwa [hw] at hmine
  obtain ⟨hstem, g, i, hstream⟩ := @soloRun_names D F nums mode channel w.config w.info w.calls
  rw [← hsolo] at hstem hstream
  dsimp only at hstem hstream
  refine h.update ?_ fun other hne => WriterRun.next_part_of_not _ act ?_ ?_
  · have hnext := @WriterRun.next_part D F nums mode (ownedBy channel)
      ⟨w.writer, s.folder, w.written⟩ act
      fun g i => by rw [hstem]; exact ownedBy_segmentName channel g i
    show run.part (ownedBy channel) = _
    rw [show run.part _ = _ from hnext, WriterRun.part, hsolo, soloRun, soloRun, List.foldl_concat]
  · intro g i
    rw [hstem]
    exact ownedBy_segmentName_of_ne hne g i
  · rw [hstream]
    exact ownedBy_segmentName_of_ne hne g i

theorem SessionLogsInv.next {a : SessionLogAct D F}
    (hstep : (sessionLogRuns nums mode).step s a = some t) : SessionLogsInv nums mode t := by
  cases a with
  | start channel config info =>
    cases hw : s.writers channel with
    | some w => simp [sessionLogRuns, SessionLogs.step, hw] at hstep
    | none =>
      simp only [sessionLogRuns, SessionLogs.step, hw, Option.some.injEq] at hstep
      exact hstep ▸ h.start config info hw
  | call channel act =>
    cases hw : s.writers channel with
    | none => simp [sessionLogRuns, SessionLogs.step, hw] at hstep
    | some w =>
      simp only [sessionLogRuns, SessionLogs.step, hw, Option.some.injEq] at hstep
      exact hstep ▸ h.call hw act

end

theorem SessionLogsInv.of_reachable (h : (sessionLogRuns nums mode).Reachable s) :
    SessionLogsInv nums mode s :=
  h.invariant (SessionLogsInv nums mode) (fun _ => SessionLogsInv.init) fun _ _ _ hs hstep => hs.next hstep

end

end RtaTool
