import RtaTool.Measure.SplSessionFolder
import RtaTool.Platform.CaptureBus

/-!
# When a log is started

Three things start a log: the input becomes active, the bus has another epoch than when the log was
started, or a START check of the calibration has found a new offset. The first two are seen by a
poll; the third restarts the log within the epoch it has. Each makes a folder and leaves a request,
which the analysis thread takes up later, and the pipeline then opens one file for each channel.
Files are opened with truncation, and what was in one of that name is gone.

The machine runs over any number of launches of the program. The clock is in whole seconds and does
not go back. The epoch belongs to the process and begins again with it; the disk does not.

Left out: that a directory cannot be made or a file not opened, the header file of the session, and
what else a calibration leaves in its folder. `starts` and `earlier` are bookkeeping.

## Main definitions

* `SplLogApp`, `SplLogAct`, `splLogRuns` -- the machine
* `SplLogApp.Apart` -- no folder is made twice and no file opened twice
* `SplLogApp.StartsAnew` -- the condition
-/

namespace RtaTool

/-- `SplLoggingAction`. -/
inductive SplLoggingAction
  | noOp
  | disable
  | enableFresh
  deriving DecidableEq, Repr

/-- `decideSplLoggingAction(input)`. -/
def decideSplLoggingAction (wasActive isActive : Bool) (lastEpoch currentEpoch : ℕ) :
    SplLoggingAction :=
  if !wasActive && !isActive then .noOp
  else if wasActive && !isActive then .disable
  else if !wasActive && isActive then .enableFresh
  else if lastEpoch = currentEpoch then .noOp
  else .enableFresh

/-- `channelsWithRole(role)`. -/
def ChannelConfig.channelsWithRole (c : ChannelConfig) (role : ChannelRole) : List ℤ :=
  ((List.range kMaxChannels).filter fun ch => c.roles ch = role).map fun ch : ℕ => (ch : ℤ)

/-- What the message thread asks of the analysis thread. -/
structure SplLogRequest (D : Type) where
  config : SplLogConfig D
  channels : List ℤ
  logDirectory : Bytes
  calibratorLevelDb : Option D

/-- `MainComponent`, the analysis thread and the pipeline, as far as logs are started and written,
and the folders they are in. -/
structure SplLogApp (D : Type) where
  clock : ℕ
  config : ChannelConfig := {}
  epoch : ℕ := 0
  running : Bool := false
  synthetic : Bool := false
  splLoggingActive : Bool := false
  lastSplEpoch : ℕ := 0
  currentSplSessionDir : Bytes := []
  currentSplLoggedChannels : List ℤ := []
  currentSplLogHasCalibratedOffset : Bool := false
  request : Option (Option (SplLogRequest D)) := none
  logDirectory : Bytes := []
  writers : List (SplLogWriter D) := []
  disk : Bytes → Folder := fun _ => { files := [] }
  folders : List Bytes := []
  starts : List (ℕ × ℕ) := []
  earlier : List (ℕ × ℕ) := []

/-- What can happen next. A START check comes with the configuration and the level that
`calibratedSplLogConfig` makes of it, the analysis thread with what a header needs, and a block with
the number of its channel's writer. -/
inductive SplLogAct (D F : Type)
  | tick (seconds : ℕ)
  | setRole (channel : ℤ) (role : ChannelRole)
  | prepare
  | setRunning (running : Bool)
  | setSyntheticMode (enabled : Bool)
  | pollSplLogging
  | startCheck (calibrated : SplLogConfig D) (calibratorLevelDb : D)
  | applyPendingSplRequest (blockSamples : ℕ) (sampleRate : D) (startedAtUnixMs : ℕ)
  | write (writer : ℕ) (block : Block D F)
  | relaunch

namespace SplLogApp

variable {D F : Type} (nums : LogNumbers D F) (mode : TextMode) (defaults : SplLogConfig D)

/-! ### The message thread -/

/-- `startFreshSplLogWithConfig(config, calibratorLevelDb, epoch)`. -/
def startFreshSplLogWithConfig (s : SplLogApp D) (config : SplLogConfig D)
    (calibratorLevelDb : Option D) (epoch : ℕ) : SplLogApp D :=
  let channels := s.config.channelsWithRole .measurement
  let sessionDir := sessionFolderName s.clock epoch
  { s with
    currentSplSessionDir := sessionDir
    currentSplLoggedChannels := channels
    currentSplLogHasCalibratedOffset := calibratorLevelDb.isSome
    request := some (some ⟨config, channels, sessionDir, calibratorLevelDb⟩)
    folders := s.folders ++ [sessionDir]
    starts := s.starts ++ [(s.clock, epoch)] }

/-- `startFreshSplLog(epoch)`. -/
def startFreshSplLog (s : SplLogApp D) (epoch : ℕ) : SplLogApp D :=
  s.startFreshSplLogWithConfig defaults none epoch

/-- `disableSplLogging()`. -/
def disableSplLogging (s : SplLogApp D) : SplLogApp D := { s with request := some none }

/-- `isSyntheticMode() || audioIo_.isRunning()`. -/
def active (s : SplLogApp D) : Bool := s.synthetic || s.running

/-- What a poll decides. -/
def action (s : SplLogApp D) : SplLoggingAction :=
  decideSplLoggingAction s.splLoggingActive s.active s.lastSplEpoch s.epoch

/-- `pollSplLogging()`. -/
def pollSplLogging (s : SplLogApp D) : SplLogApp D :=
  let seen := { s with splLoggingActive := s.active, lastSplEpoch := s.epoch }
  match s.action with
  | .noOp => s
  | .disable => seen.disableSplLogging
  | .enableFresh =>
    (if s.splLoggingActive then seen.disableSplLogging else seen).startFreshSplLog defaults s.epoch

/-- `restartSplLoggingForCalibration()`; the epoch that was last polled stays as it was. -/
def restartSplLoggingForCalibration (s : SplLogApp D) (calibrated : SplLogConfig D)
    (calibratorLevelDb : D) : SplLogApp D :=
  if !s.splLoggingActive then s
  else
    s.disableSplLogging.startFreshSplLogWithConfig calibrated (some calibratorLevelDb) s.epoch

/-- `setSyntheticMode(enabled)`: the device is stopped and the bus prepared on the way in. -/
def setSyntheticMode (s : SplLogApp D) (enabled : Bool) : SplLogApp D :=
  if enabled = s.synthetic then s
  else if enabled then { s with running := false, synthetic := true, epoch := s.epoch + 1 }
  else { s with synthetic := false }

/-! ### The analysis thread and the pipeline -/

/-- A writer is made for one more channel. -/
def addWriter (config : SplLogConfig D) (info : SplLogHeaderInfo D)
    (opened : List (SplLogWriter D) × Folder) (channel : ℤ) : List (SplLogWriter D) × Folder :=
  let made := SplLogWriter.make nums mode (channelStem channel) config info opened.2
  (opened.1 ++ [made.1], made.2)

/-- `setupWriters()`. -/
def setupWriters (s : SplLogApp D) (r : SplLogRequest D) (info : SplLogHeaderInfo D) :
    SplLogApp D :=
  let opened := r.channels.foldl (addWriter nums mode r.config info) ([], s.disk r.logDirectory)
  { s with
    logDirectory := r.logDirectory
    writers := opened.1
    disk := Function.update s.disk r.logDirectory opened.2 }

/-- `applyPendingSplRequest()`, with the pipeline's `disable()` and `enable(params)`. -/
def applyPendingSplRequest (s : SplLogApp D) (blockSamples : ℕ) (sampleRate : D)
    (startedAtUnixMs : ℕ) : SplLogApp D :=
  match s.request with
  | none => s
  | some none => { s with request := none, writers := [] }
  | some (some r) =>
    if r.logDirectory = [] then { s with request := none, writers := [] }
    else
      setupWriters nums mode { s with request := none, writers := [] } r
        { blockSamples := blockSamples
          sampleRate := sampleRate
          startedAtUnixMs := startedAtUnixMs
          calibratorLevelDb := r.calibratorLevelDb }

/-- A block reaches a channel's writer. -/
def write (s : SplLogApp D) (i : ℕ) (block : Block D F) : SplLogApp D :=
  match s.writers[i]? with
  | none => s
  | some w =>
    let written := w.write nums mode (s.disk s.logDirectory) block
    { s with
      writers := s.writers.set i written.1
      disk := Function.update s.disk s.logDirectory written.2 }

/-- The program ends, in whatever way, and is started again. -/
def relaunch (s : SplLogApp D) : SplLogApp D where
  clock := s.clock
  disk := s.disk
  folders := s.folders
  earlier := s.earlier ++ s.starts

end SplLogApp

/-- Any number of launches on a disk without logs; `defaults` is `SplConfig{}`. -/
def splLogRuns {D F : Type} (nums : LogNumbers D F) (mode : TextMode) (defaults : SplLogConfig D) :
    Machine (SplLogApp D) (SplLogAct D F) where
  init s := ∃ clock, s = { clock := clock }
  step s
    | .tick seconds => some { s with clock := s.clock + seconds }
    | .setRole channel role => some { s with config := s.config.setRole channel role }
    | .prepare => some { s with epoch := s.epoch + 1 }
    | .setRunning running => some { s with running := running }
    | .setSyntheticMode enabled => some (s.setSyntheticMode enabled)
    | .pollSplLogging => some (s.pollSplLogging defaults)
    | .startCheck calibrated calibratorLevelDb =>
      some (s.restartSplLoggingForCalibration calibrated calibratorLevelDb)
    | .applyPendingSplRequest blockSamples sampleRate startedAtUnixMs =>
      some (s.applyPendingSplRequest nums mode blockSamples sampleRate startedAtUnixMs)
    | .write i block => some (s.write nums mode i block)
    | .relaunch => some s.relaunch

/-! ### The property -/

namespace SplLogApp

variable {D F : Type}

/-- No folder was made twice, and in none of them a file was opened twice. -/
def Apart (s : SplLogApp D) : Prop :=
  s.folders.Nodup ∧ ∀ name, (s.disk name).opened.Nodup

/-- The step starts a log. -/
def Begins (s : SplLogApp D) : SplLogAct D F → Prop
  | .pollSplLogging => s.action = .enableFresh
  | .startCheck _ _ => s.splLoggingActive = true
  | _ => False

instance (s : SplLogApp D) : ∀ a : SplLogAct D F, Decidable (s.Begins a)
  | .pollSplLogging => inferInstanceAs (Decidable (s.action = .enableFresh))
  | .startCheck _ _ => inferInstanceAs (Decidable (s.splLoggingActive = true))
  | .tick _ | .setRole _ _ | .prepare | .setRunning _ | .setSyntheticMode _
  | .applyPendingSplRequest _ _ _ | .write _ _ | .relaunch => isFalse not_false

/-- Where a step starts a log, the log that the process started last is from an earlier second or an
earlier epoch, and no earlier process started one in this second at this epoch. -/
def StartsAnew (s : SplLogApp D) (a : SplLogAct D F) (_ : SplLogApp D) : Prop :=
  s.Begins a → s.starts.getLast? ≠ some (s.clock, s.epoch) ∧ (s.clock, s.epoch) ∉ s.earlier

instance (s : SplLogApp D) (a : SplLogAct D F) (t : SplLogApp D) : Decidable (s.StartsAnew a t) :=
  inferInstanceAs (Decidable (_ → _ ∧ _))

end SplLogApp

end RtaTool
