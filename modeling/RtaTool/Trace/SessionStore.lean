import RtaTool.Trace.SessionRoundTrip
import RtaTool.Trace.TraceBlobCodec
import RtaTool.Trace.TraceLibrary

/-!
# The session folder

`SessionStore.cpp`: a session is a folder with an index and one blob for each capture. Every file
is written under a temporary name and renamed into place.

A folder is what is under each name. Each filesystem call of a write ends in one of three ways: it
is done, it fails and the code goes on, or the process stops there. What a write that does not go
through leaves in the temporary file is arbitrary. A rename is atomic. Directories hold nothing of
their own, so making one can fail and changes nothing.

## Main definitions

* `SessionFolder`, `kIndexName`, `traceBlobPath`, `isValidTraceId`
* `StepEnd`, `BlobSteps`, `IndexSteps` -- how the calls of one write end
* `SessionStore.writeTrace`, `writeIndex`, `readTrace`, `readIndex`

## Main results

* `writeTrace_status`, `writeTrace_off_tmp` -- what writing a blob reports, and that of all the
  names but the temporary one only the blob's own is changed, and only by a write that went through
* `writeIndex_status`, `writeIndex_off_tmp` -- the same for the index
* `readBlob_encodeTraceBlob` -- a written blob read under any metadata of the same id and size
-/

namespace RtaTool

/-- A folder: what is under each name. -/
abbrev SessionFolder : Type := Bytes → Option Bytes

/-- `StoreStatus`. -/
inductive StoreStatus
  | ok
  | notFound
  | malformed
  | newerSchema
  | ioError
  deriving DecidableEq, Repr

namespace SessionStore

/-! ### Names -/

/-- `kIndexName`. -/
def kIndexName : Bytes := bytes "session.index"

/-- `kIndexTmpName`. -/
def kIndexTmpName : Bytes := bytes "session.index.tmp"

/-- `kTracesDirName`, as it stands before a name in it. -/
def kTracesDirName : Bytes := bytes "traces/"

/-- `kTraceBlobExt`. -/
def kTraceBlobExt : Bytes := bytes ".bin"

/-- `kTraceBlobTmpExt`. -/
def kTraceBlobTmpExt : Bytes := bytes ".bin.tmp"

/-- `traceBlobPath(root, id)`, within the folder. -/
def traceBlobPath (id : Bytes) : Bytes := kTracesDirName ++ (id ++ kTraceBlobExt)

/-- `traceBlobTmpPath(root, id)`, within the folder. -/
def traceBlobTmpPath (id : Bytes) : Bytes := kTracesDirName ++ (id ++ kTraceBlobTmpExt)

/-- `kMaxTraceIdLength`. -/
def kMaxTraceIdLength : ℕ := 128

/-- `std::isalnum(c)`, or one of the two other characters an id may have. -/
def isTraceIdByte (c : UInt8) : Bool :=
  (48 ≤ c && c ≤ 57) || (65 ≤ c && c ≤ 90) || (97 ≤ c && c ≤ 122) || c == 95 || c == 45

/-- `isValidTraceId(id)`. -/
def isValidTraceId (id : Bytes) : Bool :=
  if id = [] ∨ kMaxTraceIdLength < id.length then false else id.all isTraceIdByte

theorem traceBlobPath_inj {a b : Bytes} : traceBlobPath a = traceBlobPath b ↔ a = b := by
  rw [traceBlobPath, traceBlobPath, List.append_cancel_left_eq, List.append_cancel_right_eq]

theorem traceBlobPath_ne_indexName (id : Bytes) : traceBlobPath id ≠ kIndexName := by
  intro h
  exact absurd (congrArg List.head? h) (by decide : (some 116 : Option UInt8) ≠ some 115)

theorem traceBlobTmpPath_ne_indexName (id : Bytes) : traceBlobTmpPath id ≠ kIndexName := by
  intro h
  exact absurd (congrArg List.head? h) (by decide : (some 116 : Option UInt8) ≠ some 115)

theorem traceBlobPath_ne_indexTmpName (id : Bytes) : traceBlobPath id ≠ kIndexTmpName := by
  intro h
  exact absurd (congrArg List.head? h) (by decide : (some 116 : Option UInt8) ≠ some 115)

/-- The two extensions end differently, so no blob has another's temporary name. -/
theorem traceBlobPath_ne_tmpPath (a b : Bytes) : traceBlobPath a ≠ traceBlobTmpPath b := by
  intro h
  have hlast := congrArg List.getLast? h
  rw [traceBlobPath, traceBlobTmpPath, ← List.append_assoc, ← List.append_assoc,
    List.getLast?_append_of_ne_nil _ (by decide), List.getLast?_append_of_ne_nil _ (by decide)]
    at hlast
  exact absurd hlast (by decide)

theorem indexName_ne_tmpName : kIndexName ≠ kIndexTmpName := by decide

variable {id : Bytes}

theorem isValidTraceId_ne_nil (h : isValidTraceId id = true) : id ≠ [] := by
  rintro rfl
  exact absurd h (by decide)

theorem isValidTraceId_not_endsInCr (h : isValidTraceId id = true) :
    ¬ EndsInCr id := by
  intro hcr
  rw [isValidTraceId] at h
  split at h
  · cases h
  · have hbyte := List.all_eq_true.mp h _ (List.mem_of_getLast? hcr)
    exact absurd hbyte (by decide)

theorem isValidTraceId_length (h : isValidTraceId id = true) :
    id.length < 2 ^ 32 := by
  rw [isValidTraceId] at h
  split at h
  · cases h
  · rename_i hlen
    rw [not_or, Nat.not_lt] at hlen
    exact Nat.lt_of_le_of_lt hlen.2 (by decide)

/-! ### How a write ends -/

/-- How one filesystem call ends: it is done, it fails and returns, or the process stops in it. -/
inductive StepEnd
  | done
  | fails
  | stops
  deriving DecidableEq, Repr

/-- The call after one that was done. -/
def StepEnd.andThen (a b : StepEnd) : StepEnd := if a = .done then b else a

/-- A failure is followed by removing the temporary file, and the process may stop there too. -/
def StepEnd.cleanedUp (a remove : StepEnd) : StepEnd :=
  if a = .fails ∧ remove = .stops then .stops else a

/-- The filesystem calls of one `writeTrace`; `left` is what the temporary file holds where the
writing and closing did not go through. -/
structure BlobSteps where
  createDirectories : StepEnd := .done
  openTmp : StepEnd := .done
  close : StepEnd := .done
  left : Bytes := []
  rename : StepEnd := .done
  removeTmp : StepEnd := .done

/-- How they end together, the blob being in place exactly if they are all done. -/
def BlobSteps.ends (steps : BlobSteps) : StepEnd :=
  steps.createDirectories.andThen
    ((steps.openTmp.andThen (steps.close.andThen steps.rename)).cleanedUp steps.removeTmp)

/-- The filesystem calls of one `writeIndex`. -/
structure IndexSteps where
  createDirectories : StepEnd := .done
  openTmp : StepEnd := .done
  close : StepEnd := .done
  left : Bytes := []
  rename : StepEnd := .done

/-- How they end together. -/
def IndexSteps.ends (steps : IndexSteps) : StepEnd :=
  steps.createDirectories.andThen (steps.openTmp.andThen (steps.close.andThen steps.rename))

/-- What a write reports, if it returns at all. -/
def StepEnd.status : StepEnd → Option StoreStatus
  | .done => some .ok
  | .fails => some .ioError
  | .stops => none

/-! ### Writing -/

/-- The failure paths of `writeTrace` once it has a temporary name: remove it and report. -/
def removeTmp (steps : BlobSteps) (tmp : Bytes) (folder : SessionFolder) :
    Option StoreStatus × SessionFolder :=
  match steps.removeTmp with
  | .stops => (none, folder)
  | .fails => (some .ioError, folder)
  | .done => (some .ioError, Function.update folder tmp none)

/-- `writeTrace(trace)`: what it returns, unless the process stops in it, and the folder then. -/
def writeTrace (steps : BlobSteps) (tr : Trace UInt32) (folder : SessionFolder) :
    Option StoreStatus × SessionFolder :=
  if isValidTraceId tr.info.id = false then (some .malformed, folder)
  else
    match steps.createDirectories with
    | .stops => (none, folder)
    | .fails => (some .ioError, folder)
    | .done =>
      let finalPath := traceBlobPath tr.info.id
      let tmpPath := traceBlobTmpPath tr.info.id
      let blob := encodeTraceBlob tr
      match steps.openTmp with
      | .stops => (none, folder)
      | .fails => removeTmp steps tmpPath folder
      | .done =>
        match steps.close with
        | .stops => (none, Function.update folder tmpPath (some steps.left))
        | .fails => removeTmp steps tmpPath (Function.update folder tmpPath (some steps.left))
        | .done =>
          let written := Function.update folder tmpPath (some blob)
          match steps.rename with
          | .stops => (none, written)
          | .fails => removeTmp steps tmpPath written
          | .done =>
            (some .ok, Function.update (Function.update written finalPath (some blob)) tmpPath none)

variable (nums : NumberText)

/-- `writeIndex(doc)`: the current schema is stamped on every write. -/
def writeIndex (steps : IndexSteps) (doc : SessionDocument) (folder : SessionFolder) :
    Option StoreStatus × SessionFolder :=
  match steps.createDirectories with
  | .stops => (none, folder)
  | .fails => (some .ioError, folder)
  | .done =>
    let encoded := encodeIndex nums { doc with schemaVersion := kSchemaVersion }
    match steps.openTmp with
    | .stops => (none, folder)
    | .fails => (some .ioError, folder)
    | .done =>
      match steps.close with
      | .stops => (none, Function.update folder kIndexTmpName (some steps.left))
      | .fails => (some .ioError, Function.update folder kIndexTmpName (some steps.left))
      | .done =>
        let written := Function.update folder kIndexTmpName (some encoded)
        match steps.rename with
        | .stops => (none, written)
        | .fails => (some .ioError, written)
        | .done =>
          (some .ok,
            Function.update (Function.update written kIndexName (some encoded)) kIndexTmpName none)

/-! ### Reading -/

/-- `fromDecodeStatus(status)`. -/
def fromDecodeStatus : DecodeStatus → StoreStatus
  | .ok => .ok
  | .malformed => .malformed
  | .newerSchema => .newerSchema

/-- `readIndex(out)` into a fresh document. -/
def readIndex (folder : SessionFolder) : StoreStatus × SessionDocument :=
  match folder kIndexName with
  | none => (.notFound, {})
  | some content =>
    (fromDecodeStatus (decodeIndex nums content {} none).1, (decodeIndex nums content {} none).2)

/-- `decodeTraceBlob(blob, meta, out)` into nothing, as a status of the store. No blob makes the
decoder read past its end. -/
def readBlob (blob : Bytes) (info : CaptureMeta) : StoreStatus × Option (Trace UInt32) :=
  match decodeTraceBlob blob info none with
  | .ok (status, out) => (fromDecodeStatus status, out)
  | .error _ => (.malformed, none)

/-- `readTrace(meta, out)` into nothing. -/
def readTrace (folder : SessionFolder) (info : CaptureMeta) : StoreStatus × Option (Trace UInt32) :=
  if isValidTraceId info.id = false then (.malformed, none)
  else
    match folder (traceBlobPath info.id) with
    | none => (.notFound, none)
    | some blob => readBlob blob info

/-! ### What writing does -/

theorem removeTmp_status (steps : BlobSteps) (tmp : Bytes) (folder : SessionFolder) :
    (removeTmp steps tmp folder).1 = (StepEnd.cleanedUp .fails steps.removeTmp).status := by
  rw [removeTmp]
  cases steps.removeTmp <;> rfl

theorem removeTmp_off_tmp (steps : BlobSteps) {tmp path : Bytes} (folder : SessionFolder)
    (h : path ≠ tmp) : (removeTmp steps tmp folder).2 path = folder path := by
  rw [removeTmp]
  cases steps.removeTmp with
  | done => exact Function.update_of_ne h _ _
  | fails => rfl
  | stops => rfl

variable {tr : Trace UInt32} {a b : StepEnd}

theorem writeTrace_of_invalid (h : isValidTraceId tr.info.id = false)
    (steps : BlobSteps) (folder : SessionFolder) :
    writeTrace steps tr folder = (some .malformed, folder) := by rw [writeTrace, if_pos h]

/-- What writing a blob reports. -/
theorem writeTrace_status (h : isValidTraceId tr.info.id = true)
    (steps : BlobSteps) (folder : SessionFolder) :
    (writeTrace steps tr folder).1 = steps.ends.status := by
  rw [writeTrace, if_neg (by rw [h]; decide), BlobSteps.ends]
  cases steps.createDirectories with
  | fails => rfl
  | stops => rfl
  | done =>
    cases steps.openTmp with
    | fails => exact removeTmp_status _ _ _
    | stops => rfl
    | done =>
      cases steps.close with
      | fails => exact removeTmp_status _ _ _
      | stops => rfl
      | done =>
        cases steps.rename with
        | fails => exact removeTmp_status _ _ _
        | stops => rfl
        | done => rfl

theorem StepEnd.andThen_eq_done_iff :
    a.andThen b = .done ↔ a = .done ∧ b = .done := by
  cases a <;> simp [StepEnd.andThen]

theorem StepEnd.cleanedUp_eq_done_iff : a.cleanedUp b = .done ↔ a = .done := by
  cases a <;> cases b <;> simp [StepEnd.cleanedUp]

/-- Of all the names but the temporary one, writing a blob changes its own, and only if every call
went through. -/
theorem writeTrace_off_tmp (steps : BlobSteps) (tr : Trace UInt32) (folder : SessionFolder)
    {path : Bytes} (htmp : path ≠ traceBlobTmpPath tr.info.id) :
    (writeTrace steps tr folder).2 path =
      if path = traceBlobPath tr.info.id ∧ isValidTraceId tr.info.id = true ∧ steps.ends = .done
      then some (encodeTraceBlob tr) else folder path := by
  have hoff : ∀ content, Function.update folder (traceBlobTmpPath tr.info.id) content path =
      folder path := fun content => Function.update_of_ne htmp _ _
  rw [writeTrace]
  split
  · rename_i hid
    rw [if_neg (fun h => absurd (hid.symm.trans h.2.1) (by decide))]
  · rename_i hid
    simp only [BlobSteps.ends, StepEnd.andThen_eq_done_iff, StepEnd.cleanedUp_eq_done_iff]
    cases steps.createDirectories with
    | fails => simp
    | stops => simp
    | done =>
      cases steps.openTmp with
      | fails => simpa using removeTmp_off_tmp steps folder htmp
      | stops => simp
      | done =>
        cases steps.close with
        | fails => exact ((removeTmp_off_tmp steps _ htmp).trans (hoff _)).trans (by simp)
        | stops => simpa using hoff _
        | done =>
          cases steps.rename with
          | fails => exact ((removeTmp_off_tmp steps _ htmp).trans (hoff _)).trans (by simp)
          | stops => simpa using hoff _
          | done =>
            dsimp only
            rw [Function.update_of_ne htmp, Bool.not_eq_false] at *
            by_cases hpath : path = traceBlobPath tr.info.id
            · rw [hpath, Function.update_self, if_pos ⟨rfl, hid, by simp⟩]
            · rw [Function.update_of_ne hpath, hoff, if_neg (fun h => hpath h.1)]

section

variable (steps : IndexSteps) (doc : SessionDocument) (folder : SessionFolder)

/-- What writing the index reports. -/
theorem writeIndex_status :
    (writeIndex nums steps doc folder).1 = steps.ends.status := by
  rw [writeIndex, IndexSteps.ends]
  cases steps.createDirectories with
  | fails => rfl
  | stops => rfl
  | done =>
    cases steps.openTmp with
    | fails => rfl
    | stops => rfl
    | done =>
      cases steps.close with
      | fails => rfl
      | stops => rfl
      | done =>
        cases steps.rename with
        | fails => rfl
        | stops => rfl
        | done => rfl

/-- Of all the names but the temporary one, writing the index changes its own, and only if every
call went through. -/
theorem writeIndex_off_tmp {path : Bytes} (htmp : path ≠ kIndexTmpName) :
    (writeIndex nums steps doc folder).2 path =
      if path = kIndexName ∧ steps.ends = .done
      then some (encodeIndex nums { doc with schemaVersion := kSchemaVersion })
      else folder path := by
  have hoff : ∀ content, Function.update folder kIndexTmpName content path = folder path :=
    fun content => Function.update_of_ne htmp _ _
  rw [writeIndex, IndexSteps.ends]
  simp only [StepEnd.andThen_eq_done_iff]
  cases steps.createDirectories with
  | fails => simp
  | stops => simp
  | done =>
    cases steps.openTmp with
    | fails => simp
    | stops => simp
    | done =>
      cases steps.close with
      | fails => simpa using hoff _
      | stops => simpa using hoff _
      | done =>
        cases steps.rename with
        | fails => simpa using hoff _
        | stops => simpa using hoff _
        | done =>
          dsimp only
          rw [Function.update_of_ne htmp]
          by_cases hpath : path = kIndexName
          · rw [hpath, Function.update_self, if_pos ⟨rfl, by simp⟩]
          · rw [Function.update_of_ne hpath, hoff, if_neg (fun h => hpath h.1)]

end

/-! ### What reading gives back -/

theorem readBlob_cases (blob : Bytes) (info : CaptureMeta) :
    readBlob blob info = (.malformed, none) ∨
      ∃ tr : Trace UInt32, tr.info = info ∧ readBlob blob info = (.ok, some tr) := by
  rcases decodeTraceBlob_cases blob info none with h | ⟨tr, h⟩
  · rw [readBlob, h]
    exact .inl rfl
  · have hinfo := ((decodeTraceBlob_eq_ok_iff _ _ _ _).mp h).1
    rw [readBlob, h]
    exact .inr ⟨tr, hinfo, rfl⟩

theorem readTrace_cases (folder : SessionFolder) (info : CaptureMeta) :
    ((readTrace folder info).1 ≠ .ok ∧ (readTrace folder info).2 = none) ∨
      ∃ tr : Trace UInt32, tr.info = info ∧ isValidTraceId info.id = true ∧
        readTrace folder info = (.ok, some tr) := by
  rw [readTrace]
  split
  · exact .inl ⟨by simp, rfl⟩
  · rename_i hid
    split
    · exact .inl ⟨by simp, rfl⟩
    · rcases readBlob_cases _ info with h | ⟨tr, hinfo, h⟩
      · rw [h]
        exact .inl ⟨by simp, rfl⟩
      · exact .inr ⟨tr, hinfo, Bool.of_not_eq_false hid, h⟩

/-- A written blob under metadata of the same id and FFT size: the columns under that metadata. -/
theorem readBlob_encodeTraceBlob {tr : Trace UInt32} (hcount : tr.pointCount < 2 ^ 32)
    (hid : tr.info.id.length < 2 ^ 32) {info : CaptureMeta} (hinfo : info.id = tr.info.id)
    (hsize : info.fftSize = tr.info.fftSize) :
    readBlob (encodeTraceBlob tr) info =
      (.ok, some { tr with info := info, magnitude_length := hsize ▸ tr.magnitude_length }) := by
  have hok : decodeTraceBlob (encodeTraceBlob tr) info none = .ok (.ok, some
      { tr with info := info, magnitude_length := hsize ▸ tr.magnitude_length }) := by
    refine (decodeTraceBlob_eq_ok_iff _ _ _ _).mpr
      ⟨rfl, hcount, hinfo ▸ hid, tr.presence, tr.presence_and_knownBits, ?_⟩
    rw [encodeTraceBlob, blobBytes, blobBytes]
    show _ = bytes "RTAT" ++ u32Bytes tr.pointCount.toUInt32 ++ u32Bytes tr.presence ++
      u32Bytes info.id.length.toUInt32 ++ info.id ++ tr.columnBytes
    rw [hinfo]
  rw [readBlob, hok]
  rfl

end SessionStore

end RtaTool
