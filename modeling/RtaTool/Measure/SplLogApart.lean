import RtaTool.Measure.SplLogStarts

/-!
# Which logs are kept apart

A folder's name is made from a second and an epoch, so two starts share a folder exactly when they
share both. Within one process seconds and epochs only grow, and the last start is the one to
compare with. A folder that was made once belongs to one session of the pipeline, and in it every
writer opens its segments in order.

## Main results

* `StartsInv.begin` -- a start that is anew makes a folder that was not there
* `splLogRuns_apart` -- the logs are kept apart exactly in the runs whose starts are all anew
* `splLogRuns_truncates` -- two START checks in one second empty the first log
-/

namespace RtaTool

namespace SplLogApp

variable {D F : Type} {nums : LogNumbers D F} {mode : TextMode} {defaults : SplLogConfig D}
  {s t : SplLogApp D}

/-! ### Writers of one folder -/

/-- The segments of the writers that are in the folder have no higher number than those being
written, and different writers have different stems. -/
structure WritersInv (writers : List (SplLogWriter D)) (folder : Folder) : Prop where
  stems : ∀ w ∈ writers, ∃ ch, w.stem = channelStem ch
  distinct : (writers.map (·.stem)).Nodup
  reached : ∀ w ∈ writers, ∀ i, segmentName w.stem w.logGeneration i ∈ folder.opened →
    i ≤ w.segmentIndex

theorem WritersInv.nil (folder : Folder) : WritersInv ([] : List (SplLogWriter D)) folder :=
  ⟨nofun, .nil, nofun⟩

section

variable (nums : LogNumbers D F) (mode : TextMode)

theorem foldl_addWriter (config : SplLogConfig D)
    (info : SplLogHeaderInfo D) (channels : List ℤ) (opened : List (SplLogWriter D) × Folder) :
    let r := channels.foldl (addWriter nums mode config info) opened
    (r.1.map fun w => (w.stem, w.logGeneration, w.segmentIndex)) =
        (opened.1.map fun w => (w.stem, w.logGeneration, w.segmentIndex)) ++
          channels.map (fun ch => (channelStem ch, 0, 0)) ∧
      r.2.opened = opened.2.opened ++ channels.map fun ch => segmentName (channelStem ch) 0 0 := by
  induction channels generalizing opened with
  | nil => simp
  | cons ch channels ih =>
    obtain ⟨hwriters, hopened⟩ := ih (addWriter nums mode config info opened ch)
    refine ⟨hwriters.trans ?_, hopened.trans ?_⟩
    · simp [addWriter, SplLogWriter.make, SplLogWriter.openSegment]
    · simp [addWriter, SplLogWriter.make, SplLogWriter.openSegment, Folder.append,
        Folder.openTrunc]

theorem channelStem_inj {ch ch' : ℤ} (h : channelStem ch = channelStem ch') : ch = ch' :=
  (segmentName_channelStem_inj (congrArg (segmentName · 0 0) h)).1

theorem writersInv_foldl_addWriter
    (config : SplLogConfig D) (info : SplLogHeaderInfo D) {channels : List ℤ}
    (hchannels : channels.Nodup) {folder : Folder} (hempty : folder.opened = []) :
    let r := channels.foldl (addWriter nums mode config info) ([], folder)
    WritersInv r.1 r.2 ∧ r.2.opened.Nodup ∧ (r.1 ≠ [] → r.2.opened ≠ []) := by
  obtain ⟨hwriters, hopened⟩ := foldl_addWriter nums mode config info channels ([], folder)
  generalize channels.foldl (addWriter nums mode config info) ([], folder) = r at hwriters hopened ⊢
  rw [hempty, List.nil_append] at hopened
  rw [List.map_nil, List.nil_append] at hwriters
  have hkey : ∀ w ∈ r.1, ∃ ch, w.stem = channelStem ch ∧ w.logGeneration = 0 := by
    intro w hw
    have hmem := List.mem_map_of_mem (f := fun w => (w.stem, w.logGeneration, w.segmentIndex)) hw
    rw [hwriters] at hmem
    obtain ⟨ch, -, heq⟩ := List.mem_map.mp hmem
    simp only [Prod.mk.injEq] at heq
    exact ⟨ch, heq.1.symm, heq.2.1.symm⟩
  have hstems : r.1.map (·.stem) = channels.map channelStem := by
    have hmap := congrArg (List.map Prod.fst) hwriters
    simpa only [List.map_map, Function.comp_def] using hmap
  refine ⟨⟨fun w hw => ?_, ?_, fun w hw i hi => ?_⟩, ?_, fun hne hnil => hne ?_⟩
  · obtain ⟨ch, hstem, -⟩ := hkey w hw
    exact ⟨ch, hstem⟩
  · rw [hstems]
    exact hchannels.map fun _ _ => channelStem_inj
  · obtain ⟨ch, hstem, hgen⟩ := hkey w hw
    rw [hstem, hgen, hopened] at hi
    obtain ⟨ch', -, heq⟩ := List.mem_map.mp hi
    obtain ⟨-, hnumber⟩ := segmentName_channelStem_inj heq
    cases hnumber
    exact Nat.zero_le _
  · rw [hopened]
    exact hchannels.map fun _ _ h => (segmentName_channelStem_inj h).1
  · rw [hopened, List.map_eq_nil_iff] at hnil
    rw [hnil, List.map_nil, List.map_eq_nil_iff] at hwriters
    exact hwriters

/-- What a block does to a writer and the folder: a new segment may be opened. -/
theorem write_cases (w : SplLogWriter D) (folder : Folder) (block : Block D F) :
    let r := w.write nums mode folder block
    r.1.stem = w.stem ∧ r.1.logGeneration = w.logGeneration ∧
      (r.1.segmentIndex = w.segmentIndex ∧ r.2.opened = folder.opened ∨
        r.1.segmentIndex = w.segmentIndex + 1 ∧ r.2.opened = folder.opened ++
          [segmentName w.stem w.logGeneration (w.segmentIndex + 1)]) := by
  dsimp only [SplLogWriter.write]
  rw [SplLogWriter.rotate]
  split
  · exact ⟨rfl, rfl, .inr ⟨rfl, rfl⟩⟩
  · exact ⟨rfl, rfl, .inl ⟨rfl, rfl⟩⟩

/-- A block keeps the invariant, and opens nothing twice. -/
theorem WritersInv.write
    {writers : List (SplLogWriter D)} {folder : Folder} (h : WritersInv writers folder) {i : ℕ} {w : SplLogWriter D} (hw : writers[i]? = some w)
    (hopened : folder.opened.Nodup) (block : Block D F) :
    let r := w.write nums mode folder block
    WritersInv (writers.set i r.1) r.2 ∧ r.2.opened.Nodup ∧ (folder.opened ≠ [] → r.2.opened ≠ []) := by
  have hcases := write_cases nums mode w folder block
  dsimp only at hcases ⊢
  generalize w.write nums mode folder block = r at hcases ⊢
  obtain ⟨hstem, hgen, hcases⟩ := hcases
  have hmem : w ∈ writers := List.mem_of_getElem? hw
  have hdistinct : ((writers.set i r.1).map (·.stem)).Nodup := by
    have hsame : (writers.set i r.1).map (·.stem) = writers.map (·.stem) := by
      rw [List.map_set]
      refine List.ext_getElem? fun j => ?_
      rw [List.getElem?_set]
      split
      · rename_i hij
        subst hij
        rw [List.getElem?_map, hw, Option.map_some, hstem]
        simp [List.getElem?_eq_some_iff.mp hw |>.1]
      · rfl
    rw [hsame]
    exact h.distinct
  have hstems : ∀ v ∈ writers.set i r.1, ∃ ch, v.stem = channelStem ch := by
    intro v hv
    rcases List.mem_or_eq_of_mem_set hv with hv | rfl
    · exact h.stems v hv
    · rw [hstem]
      exact h.stems w hmem
  have hnew : segmentName w.stem w.logGeneration (w.segmentIndex + 1) ∉ folder.opened :=
    fun hold => absurd (h.reached w hmem _ hold) (by omega)
  rcases hcases with ⟨hindex, hopen⟩ | ⟨hindex, hopen⟩
  · rw [hopen]
    refine ⟨⟨hstems, hdistinct, fun v hv j hj => ?_⟩, hopened, id⟩
    rw [hopen] at hj
    rcases List.mem_or_eq_of_mem_set hv with hv | rfl
    · exact h.reached v hv j hj
    · rw [hstem, hgen] at hj
      rw [hindex]
      exact h.reached w hmem j hj
  · rw [hopen]
    refine ⟨⟨hstems, hdistinct, fun v hv j hj => ?_⟩,
      List.nodup_append.mpr ⟨hopened, List.nodup_singleton _, ?_⟩, by simp⟩
    · rw [hopen, List.mem_append, List.mem_singleton] at hj
      rcases hj with hj | hj
      · rcases List.mem_or_eq_of_mem_set hv with hv | rfl
        · exact h.reached v hv j hj
        · rw [hstem, hgen] at hj
          exact (h.reached w hmem j hj).trans (by omega)
      · -- a writer whose name is the new one has this writer's stem, and is this writer
        obtain ⟨ch, hch⟩ := hstems v hv
        obtain ⟨ch', hch'⟩ := h.stems w hmem
        rw [hch, hch'] at hj
        obtain ⟨rfl, hnumber⟩ := segmentName_channelStem_inj hj
        have hr : r.1 ∈ writers.set i r.1 :=
          List.mem_set (List.getElem?_eq_some_iff.mp hw).1 r.1
        have hv' : v = r.1 := List.inj_on_of_nodup_map hdistinct hv hr
          (hch.trans (hch'.symm.trans hstem.symm))
        rw [hv', hindex]
        exact (congrArg Prod.snd hnumber).le
    · intro a ha b hb hab
      rw [List.mem_singleton.mp hb] at hab
      exact hnew (hab ▸ ha)

end

/-! ### The invariant -/

/-- The folder of a start. -/
def folderOf (start : ℕ × ℕ) : Bytes := sessionFolderName start.1 start.2

theorem folderOf_inj {p q : ℕ × ℕ} (h : folderOf p = folderOf q) : p = q := by
  obtain ⟨hnow, hepoch⟩ := sessionFolderName_inj h
  exact Prod.ext hnow hepoch

/-- All logs started so far are apart; the last of this process is the latest of them; and the
folder of a request that has not been taken up is untouched. -/
structure StartsInv (s : SplLogApp D) : Prop where
  folders : s.folders = (s.earlier ++ s.starts).map folderOf
  distinct : (s.earlier ++ s.starts).Nodup
  clock : ∀ p ∈ s.starts, p.1 ≤ s.clock
  epoch : ∀ p ∈ s.starts, p.2 ≤ s.epoch
  last : ∀ p ∈ s.starts, ∀ q ∈ s.starts.getLast?, p.1 ≤ q.1 ∧ p.2 ≤ q.2
  opened : ∀ name, (s.disk name).opened.Nodup
  made : ∀ name, (s.disk name).opened ≠ [] → name ∈ s.folders
  request : ∀ r, s.request = some (some r) →
    (s.disk r.logDirectory).opened = [] ∧ r.logDirectory ∈ s.folders ∧ r.channels.Nodup
  current : WritersInv s.writers (s.disk s.logDirectory)
  live : s.writers ≠ [] → (s.disk s.logDirectory).opened ≠ []

section

variable (hs : StartsInv s)

include hs

theorem StartsInv.apart : s.Apart := by
  refine ⟨?_, hs.opened⟩
  rw [hs.folders]
  exact hs.distinct.map fun _ _ => folderOf_inj

/-- A step that starts no log, takes none up and writes none. -/
theorem StartsInv.aside {clock epoch lastSplEpoch : ℕ} {config : ChannelConfig}
    {running synthetic splLoggingActive : Bool} (hclock : s.clock ≤ clock)
    (hepoch : s.epoch ≤ epoch) :
    StartsInv { s with
      clock := clock
      config := config
      epoch := epoch
      running := running
      synthetic := synthetic
      splLoggingActive := splLoggingActive
      lastSplEpoch := lastSplEpoch } :=
  { hs with
    clock := fun p hp => (hs.clock p hp).trans hclock
    epoch := fun p hp => (hs.epoch p hp).trans hepoch }

theorem StartsInv.disableSplLogging : StartsInv s.disableSplLogging :=
  { hs with request := nofun }

theorem StartsInv.fresh (hlast : s.starts.getLast? ≠ some (s.clock, s.epoch))
    (hearlier : (s.clock, s.epoch) ∉ s.earlier) : (s.clock, s.epoch) ∉ s.earlier ++ s.starts := by
  rw [List.mem_append, not_or]
  refine ⟨hearlier, fun hmem => hlast ?_⟩
  obtain ⟨q, hq⟩ : ∃ q, s.starts.getLast? = some q :=
    ⟨_, List.getLast?_eq_some_getLast (List.ne_nil_of_mem hmem)⟩
  have hqmem : q ∈ s.starts := List.mem_of_getLast? hq
  obtain ⟨hclock, hepoch⟩ := hs.last _ hmem q hq
  have hq' : q = (s.clock, s.epoch) :=
    Prod.ext ((hs.clock q hqmem).antisymm hclock) ((hs.epoch q hqmem).antisymm hepoch)
  rw [hq, hq']

omit hs in
theorem nodup_channelsWithRole (c : ChannelConfig) (role : ChannelRole) :
    (c.channelsWithRole role).Nodup :=
  (List.nodup_range.filter _).map fun _ _ h => Int.ofNat_inj.mp h

/-- A start that is anew makes a folder that was not there. -/
theorem StartsInv.begin (hfresh : (s.clock, s.epoch) ∉ s.earlier ++ s.starts)
    (config : SplLogConfig D) (calibratorLevelDb : Option D) :
    StartsInv (s.startFreshSplLogWithConfig config calibratorLevelDb s.epoch) := by
  have hnew : sessionFolderName s.clock s.epoch ∉ s.folders := by
    rw [hs.folders]
    intro hmem
    obtain ⟨p, hp, heq⟩ := List.mem_map.mp hmem
    exact hfresh (folderOf_inj (q := (s.clock, s.epoch)) heq ▸ hp)
  have hunmade : (s.disk (sessionFolderName s.clock s.epoch)).opened = [] := by
    by_contra hne
    exact hnew (hs.made _ hne)
  refine ⟨?_, ?_, ?_, ?_, ?_, hs.opened, fun name hname => ?_, fun r hr => ?_, hs.current, hs.live⟩
  · show s.folders ++ [_] = (s.earlier ++ (s.starts ++ [_])).map folderOf
    rw [← List.append_assoc, List.map_append, ← hs.folders]
    rfl
  · show (s.earlier ++ (s.starts ++ [(s.clock, s.epoch)])).Nodup
    rw [← List.append_assoc]
    refine List.nodup_append.mpr ⟨hs.distinct, List.nodup_singleton _, fun a ha b hb hab => ?_⟩
    rw [List.mem_singleton.mp hb] at hab
    exact hfresh (hab ▸ ha)
  · exact List.forall_mem_append.mpr ⟨hs.clock, List.forall_mem_singleton.mpr le_rfl⟩
  · exact List.forall_mem_append.mpr ⟨hs.epoch, List.forall_mem_singleton.mpr le_rfl⟩
  · intro p hp q hq
    have hq' : (s.clock, s.epoch) = q := by
      simpa [startFreshSplLogWithConfig] using hq
    subst hq'
    rcases List.mem_append.mp hp with hp | hp
    · exact ⟨hs.clock p hp, hs.epoch p hp⟩
    · rw [List.mem_singleton.mp hp]
      exact ⟨le_rfl, le_rfl⟩
  · exact List.mem_append_left _ (hs.made name hname)
  · cases hr
    exact ⟨hunmade, List.mem_append_right _ (List.mem_singleton_self _),
      nodup_channelsWithRole _ _⟩

/-! ### The steps -/

omit hs in
theorem pollSplLogging_of_begins (defaults : SplLogConfig D) (h : s.action = .enableFresh) :
    ∃ seen : SplLogApp D, s.pollSplLogging defaults =
        seen.startFreshSplLogWithConfig defaults none seen.epoch ∧
      seen.folders = s.folders ∧ (StartsInv s → StartsInv seen) ∧ seen.clock = s.clock ∧
      seen.epoch = s.epoch ∧ seen.starts = s.starts ∧ seen.earlier = s.earlier := by
  rw [pollSplLogging, h]
  dsimp only
  cases s.splLoggingActive with
  | false => exact ⟨_, rfl, rfl, fun hs => hs.aside le_rfl le_rfl, rfl, rfl, rfl, rfl⟩
  | true =>
    exact ⟨_, rfl, rfl, fun hs => (hs.aside le_rfl le_rfl).disableSplLogging, rfl, rfl, rfl, rfl⟩

theorem StartsInv.pollSplLogging
    (hfresh : s.action = .enableFresh → (s.clock, s.epoch) ∉ s.earlier ++ s.starts) :
    StartsInv (s.pollSplLogging defaults) := by
  by_cases hbegins : s.action = .enableFresh
  · obtain ⟨seen, heq, -, hseen, hclock, hepoch, hstarts, hearlier⟩ :=
      pollSplLogging_of_begins defaults hbegins
    rw [heq]
    refine (hseen hs).begin ?_ defaults none
    rw [hclock, hepoch, hstarts, hearlier]
    exact hfresh hbegins
  · rw [SplLogApp.pollSplLogging]
    split
    · exact hs
    · exact (hs.aside le_rfl le_rfl).disableSplLogging
    · exact absurd ‹_› hbegins

theorem StartsInv.restartSplLoggingForCalibration
    (hfresh : s.splLoggingActive = true → (s.clock, s.epoch) ∉ s.earlier ++ s.starts)
    (calibrated : SplLogConfig D) (calibratorLevelDb : D) :
    StartsInv (s.restartSplLoggingForCalibration calibrated calibratorLevelDb) := by
  rw [SplLogApp.restartSplLoggingForCalibration]
  split
  · exact hs
  · rename_i hactive
    rw [Bool.not_eq_true, Bool.not_eq_false'] at hactive
    exact hs.disableSplLogging.begin (hfresh hactive) calibrated _

theorem StartsInv.setSyntheticMode (enabled : Bool) :
    StartsInv (s.setSyntheticMode enabled) := by
  rw [SplLogApp.setSyntheticMode]
  split
  · exact hs
  · split
    · exact hs.aside le_rfl (Nat.le_succ _)
    · exact hs.aside le_rfl le_rfl

/-- The pipeline lets go of its writers. -/
theorem StartsInv.disable :
    StartsInv ({ s with request := none, writers := [] } : SplLogApp D) :=
  { hs with
    request := nofun
    current := .nil _
    live := fun h => absurd rfl h }

/-- A request that is taken up opens files in a folder in which none has been opened. -/
theorem StartsInv.setupWriters {r : SplLogRequest D}
    (hr : s.request = some (some r)) (info : SplLogHeaderInfo D) :
    StartsInv (SplLogApp.setupWriters nums mode { s with request := none, writers := [] } r info) := by
  obtain ⟨hempty, hmade, hchannels⟩ := hs.request r hr
  obtain ⟨hwriters, hopened, hlive⟩ :=
    writersInv_foldl_addWriter nums mode r.config info hchannels hempty
  rw [SplLogApp.setupWriters]
  generalize r.channels.foldl (addWriter nums mode r.config info) ([], s.disk r.logDirectory) = made
    at hwriters hopened hlive ⊢
  refine ⟨hs.folders, hs.distinct, hs.clock, hs.epoch, hs.last, fun name => ?_, fun name hname => ?_,
    nofun, ?_, fun h => ?_⟩
  · by_cases hdir : name = r.logDirectory
    · subst hdir
      simpa using hopened
    · simpa [hdir] using hs.opened name
  · by_cases hdir : name = r.logDirectory
    · exact hdir ▸ hmade
    · exact hs.made name (by simpa [hdir] using hname)
  · simpa using hwriters
  · simpa using hlive h

theorem StartsInv.applyPendingSplRequest (blockSamples : ℕ) (sampleRate : D) (startedAtUnixMs : ℕ) :
    StartsInv (s.applyPendingSplRequest nums mode blockSamples sampleRate startedAtUnixMs) := by
  rw [SplLogApp.applyPendingSplRequest.eq_def]
  split
  · exact hs
  · exact hs.disable
  · rename_i hr
    split
    · exact hs.disable
    · exact hs.setupWriters hr _

theorem StartsInv.write (i : ℕ) (block : Block D F) :
    StartsInv (s.write nums mode i block) := by
  rw [SplLogApp.write]
  split
  · exact hs
  · rename_i w hw
    obtain ⟨hwriters, hopened, hlive⟩ := hs.current.write nums mode hw
      (hs.opened s.logDirectory) block
    have hne : s.writers ≠ [] := List.ne_nil_of_mem (List.mem_of_getElem? hw)
    generalize w.write nums mode (s.disk s.logDirectory) block = written at hwriters hopened hlive ⊢
    refine ⟨hs.folders, hs.distinct, hs.clock, hs.epoch, hs.last, fun name => ?_,
      fun name hname => ?_, fun r hr => ?_, ?_, fun _ => ?_⟩
    · by_cases hdir : name = s.logDirectory
      · subst hdir
        simpa using hopened
      · simpa [hdir] using hs.opened name
    · by_cases hdir : name = s.logDirectory
      · rw [hdir]
        exact hs.made _ (hs.live hne)
      · exact hs.made name (by simpa [hdir] using hname)
    · -- the folder of a request is not the one that is written
      obtain ⟨hempty, hrest⟩ := hs.request r hr
      have hdir : r.logDirectory ≠ s.logDirectory := fun h => hs.live hne (h ▸ hempty)
      exact ⟨by simpa [hdir] using hempty, hrest⟩
    · simpa using hwriters
    · simpa using hlive (hs.live hne)

theorem StartsInv.relaunch : StartsInv s.relaunch where
  folders := by
    rw [SplLogApp.relaunch]
    simpa using hs.folders
  distinct := by
    rw [SplLogApp.relaunch]
    simpa using hs.distinct
  clock := nofun
  epoch := nofun
  last := nofun
  opened := hs.opened
  made := hs.made
  request := nofun
  current := .nil _
  live h := absurd rfl h

theorem StartsInv.step {a : SplLogAct D F}
    (hstep : (splLogRuns nums mode defaults).step s a = some t)
    (hfresh : s.Begins a → (s.clock, s.epoch) ∉ s.earlier ++ s.starts) : StartsInv t := by
  cases a with
  | tick seconds =>
    cases hstep
    exact hs.aside (Nat.le_add_right _ _) le_rfl
  | setRole channel role =>
    cases hstep
    exact hs.aside le_rfl le_rfl
  | prepare =>
    cases hstep
    exact hs.aside le_rfl (Nat.le_succ _)
  | setRunning running =>
    cases hstep
    exact hs.aside le_rfl le_rfl
  | setSyntheticMode enabled =>
    cases hstep
    exact hs.setSyntheticMode enabled
  | pollSplLogging =>
    cases hstep
    exact hs.pollSplLogging hfresh
  | startCheck calibrated calibratorLevelDb =>
    cases hstep
    exact hs.restartSplLoggingForCalibration hfresh calibrated calibratorLevelDb
  | applyPendingSplRequest blockSamples sampleRate startedAtUnixMs =>
    cases hstep
    exact hs.applyPendingSplRequest blockSamples sampleRate startedAtUnixMs
  | write i block =>
    cases hstep
    exact hs.write i block
  | relaunch =>
    cases hstep
    exact hs.relaunch

omit hs in
theorem folders_of_begins {a : SplLogAct D F} (hbegins : s.Begins a)
    (hstep : (splLogRuns nums mode defaults).step s a = some t) :
    t.folders = s.folders ++ [folderOf (s.clock, s.epoch)] := by
  cases a with
  | pollSplLogging =>
    cases hstep
    obtain ⟨seen, heq, hfolders, -, hclock, hepoch, -⟩ :=
      pollSplLogging_of_begins defaults hbegins
    rw [heq]
    show seen.folders ++ [sessionFolderName seen.clock seen.epoch] = _
    rw [hfolders, hclock, hepoch]
    rfl
  | startCheck calibrated calibratorLevelDb =>
    cases hstep
    rw [SplLogApp.restartSplLoggingForCalibration, show s.splLoggingActive = true from hbegins]
    rfl
  | _ => exact absurd hbegins not_false

theorem StartsInv.apart_iff {a : SplLogAct D F}
    (hstep : (splLogRuns nums mode defaults).step s a = some t) : t.Apart ↔ s.StartsAnew a t := by
  constructor
  · rintro ⟨hfolders, -⟩ hbegins
    have hnew : (s.clock, s.epoch) ∉ s.earlier ++ s.starts := by
      intro hmem
      rw [folders_of_begins hbegins hstep, hs.folders] at hfolders
      exact (List.nodup_append.mp hfolders).2.2 _ (List.mem_map_of_mem hmem) _
        (List.mem_singleton_self _) rfl
    rw [List.mem_append, not_or] at hnew
    exact ⟨fun hlast => hnew.2 (List.mem_of_getLast? hlast), hnew.1⟩
  · intro hanew
    exact (hs.step hstep fun hbegins => hs.fresh (hanew hbegins).1 (hanew hbegins).2).apart

end

end SplLogApp

/-- **Headline.** The logs are kept apart, folder by folder and file by file, after every step of a
run exactly when each of its starts is anew: the last start of the process was in an earlier second
or at an earlier epoch, and no earlier process started a log in the same second at the same
epoch. -/
theorem splLogRuns_apart {D F : Type} (nums : LogNumbers D F) (mode : TextMode)
    (defaults : SplLogConfig D) {s : SplLogApp D} (hinit : (splLogRuns nums mode defaults).init s)
    (acts : List (SplLogAct D F)) :
    (splLogRuns nums mode defaults).AlongSteps (fun _ _ t => t.Apart) s acts ↔
      (splLogRuns nums mode defaults).AlongSteps SplLogApp.StartsAnew s acts := by
  obtain ⟨clock, rfl⟩ := hinit
  refine Machine.alongSteps_iff SplLogApp.StartsInv (fun s a t hs hstep hok => ?_)
    (fun s a t hs hstep => hs.apart_iff hstep)
    ⟨rfl, .nil, nofun, nofun, nofun, fun _ => .nil, fun _ h => absurd rfl h, nofun, .nil _,
      fun h => absurd rfl h⟩
  exact hs.step hstep fun hbegins => hs.fresh (hok hbegins).1 (hok hbegins).2

/-- A device is opened with a microphone on its first channel, and the log is taken up. -/
def openedLog : List (SplLogAct ℚ ℚ) :=
  [.setRole 0 .measurement, .prepare, .setRunning true, .pollSplLogging,
    .applyPendingSplRequest 48000 48000 0]

/-- A START check is completed, and its log is taken up. -/
def checkedLog : List (SplLogAct ℚ ℚ) :=
  [.startCheck (plainLogConfig 3600) 94, .applyPendingSplRequest 48000 48000 0]

/-- A START check in the next second, a restart of the device, and the program again after that. -/
theorem splLogRuns_apart_nextSecond :
    (splLogRuns fractionLog .lf (plainLogConfig 3600)).AlongSteps (fun _ _ t => t.Apart)
      { clock := 0 }
      (openedLog ++ (.tick 1 :: checkedLog) ++ [.prepare, .pollSplLogging, .relaunch, .tick 1] ++
        openedLog) :=
  (splLogRuns_apart fractionLog .lf (plainLogConfig 3600) ⟨0, rfl⟩ _).mpr (by decide +kernel)

/-- Two logs in one second: the START check empties the file of the log that was just opened. -/
theorem splLogRuns_truncates :
    ∃ s t, (splLogRuns (F := ℚ) fractionLog .lf (plainLogConfig 3600)).init s ∧
      (splLogRuns fractionLog .lf (plainLogConfig 3600)).exec s (openedLog ++ checkedLog) = some t ∧
      ¬ t.folders.Nodup ∧ ∃ name, ¬ (t.disk name).opened.Nodup :=
  ⟨{ clock := 0 }, _, ⟨0, rfl⟩, rfl, by decide +kernel, sessionFolderName 0 1, by decide +kernel⟩

end RtaTool
