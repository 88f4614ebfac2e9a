import RtaTool.Trace.SessionOpen

/-!
# Saving a session

`MainComponentSession::performSave`: every capture's blob first, then the index that names those
that were written. Each blob is renamed over whatever is under its id, one after the other, and the
index over the old index at the end.

Two things go wrong between the two. A blob that could not be written is left out of the index, and
what Save reports is the index's status alone, so it reports a session as saved that has lost a
capture. A blob that was written is in place before the index is, so where the process stops or the
index fails, the old index reads the new blob under an id it already named.

## Main definitions

* `blobEnds`, `writtenRows` -- how the writing of a capture ends, and which are in place when the
  loop is over or the process has stopped
* `saveRows`, `performSave`, `Save`, `folderAfter`
* `Save.Keeps` -- what a save is for
* `Save.Safe` -- when it does it

## Main results

* `saveRows_result`, `saveRows_written`, `saveRows_off_tmp` -- the loop over the captures
* `indexDistinct_folderAfter` -- no run of saves leaves an index that names an id twice
* `performSave_keeps_iff` -- **Headline.** After any saves before it, whatever steps failed in them,
  a save keeps its promise exactly when it is safe
-/

namespace RtaTool

open SessionStore

/-! ### The save -/

/-- How writing the capture of a row ends: an id that is refused is a failure like any other. -/
def blobEnds (steps : Bytes → BlobSteps) (row : LibraryRow) : StepEnd :=
  if isValidTraceId row.2.info.id = true then (steps row.2.info.id).ends else .fails

/-- The rows whose blobs are in place once the loop is over or the process has stopped. -/
def writtenRows (steps : Bytes → BlobSteps) (rows : List LibraryRow) : List LibraryRow :=
  (rows.takeWhile fun row => blobEnds steps row ≠ .stops).filter fun row => blobEnds steps row = .done

/-- The loop over the library: the document so far, unless the process stops in it, and the folder.
The steps of a write are those for its id, which no other row has. -/
def saveRows (steps : Bytes → BlobSteps) :
    List LibraryRow → SessionFolder → SessionDocument → Option SessionDocument × SessionFolder
  | [], folder, doc => (some doc, folder)
  | row :: rows, folder, doc =>
    match writeTrace (steps row.2.info.id) row.2 folder with
    | (none, folder) => (none, folder)
    | (some status, folder) =>
      if status ≠ .ok then saveRows steps rows folder doc
      else
        saveRows steps rows folder
          { doc with captures := doc.captures ++ [row.2.info], entries := doc.entries ++ [row.1] }

variable (nums : NumberText)

/-- A click on Save: the library and the panes it finds, and how its filesystem calls end. -/
structure Save where
  library : TraceLibrary
  panes : List PaneSpec := []
  blob : Bytes → BlobSteps := fun _ => {}
  index : IndexSteps := {}

/-- `performSave(folder)`: the status its readout shows, unless the process stops, and the folder. -/
def performSave (save : Save) (folder : SessionFolder) : Option StoreStatus × SessionFolder :=
  match saveRows save.blob save.library.rows folder { panes := save.panes } with
  | (none, folder) => (none, folder)
  | (some doc, folder) => writeIndex nums save.index doc folder

/-- The folder after some saves, each by whichever process. -/
def folderAfter (start : SessionFolder) (saves : List Save) : SessionFolder :=
  saves.foldl (fun folder save => (performSave nums save folder).2) start

/-! ### What a save promises -/

/-- The readout says `SAVED`. -/
def Save.Reports (save : Save) (folder : SessionFolder) : Prop :=
  (performSave nums save folder).1 = some .ok

/-- A save that reports it has saved is opened again as exactly the rows of the library; after any
other, the folder opens as it did before. -/
def Save.Keeps (save : Save) (folder : SessionFolder) : Prop :=
  (save.Reports nums folder →
    ∀ shown, (performOpen nums (performSave nums save folder).2 shown).2.rows =
      save.library.rows) ∧
  (¬ save.Reports nums folder →
    ∀ shown, performOpen nums (performSave nums save folder).2 shown =
      performOpen nums folder shown)

/-- The process does not stop while the blobs are written, and every call for the index is done. -/
def Save.ReplacesIndex (save : Save) : Prop :=
  (∀ row ∈ save.library.rows, blobEnds save.blob row ≠ .stops) ∧ save.index.ends = .done

/-- The texts of a row that go into the index. -/
def LibraryRow.texts (row : LibraryRow) : List Bytes :=
  [row.1.traceId, row.1.name, row.1.group, row.2.info.id, row.2.info.deviceName,
    row.2.info.channelRoles, row.2.info.window, row.2.info.averagingType]

/-- Where the index is replaced, every capture has a valid id, none of the calls for its blob fails
and no text ends in a carriage return. Where it is not, each blob that came into place reads, under
every capture of that id in the old index, as what was there before. -/
def Save.Safe (save : Save) (folder : SessionFolder) : Prop :=
  (save.ReplacesIndex → ∀ row ∈ save.library.rows,
    blobEnds save.blob row = .done ∧ ∀ t ∈ row.texts, ¬ EndsInCr t) ∧
  (¬ save.ReplacesIndex → ∀ row ∈ writtenRows save.blob save.library.rows,
    ∀ m ∈ (readIndex nums folder).2.captures, m.id = row.2.info.id →
      load folder m = (readBlob (encodeTraceBlob row.2) m).2)

/-- No id comes twice among the captures of the index. -/
def IndexDistinct (folder : SessionFolder) : Prop :=
  ((readIndex nums folder).2.captures.map (·.id)).Nodup

/-! ### The loop over the captures -/

@[simp] theorem writtenRows_nil (steps : Bytes → BlobSteps) : writtenRows steps [] = [] := rfl

theorem writtenRows_cons (steps : Bytes → BlobSteps) (row : LibraryRow) (rows : List LibraryRow) :
    writtenRows steps (row :: rows) =
      match blobEnds steps row with
      | .stops => []
      | .fails => writtenRows steps rows
      | .done => row :: writtenRows steps rows := by
  rw [writtenRows, writtenRows, List.takeWhile_cons]
  cases h : blobEnds steps row with
  | stops => simp
  | fails => simp [h]
  | done => simp [h]

theorem writtenRows_sublist (steps : Bytes → BlobSteps) (rows : List LibraryRow) :
    (writtenRows steps rows).Sublist rows :=
  List.filter_sublist.trans (List.takeWhile_sublist _)

variable {rows : List LibraryRow}

theorem valid_of_mem_writtenRows {steps : Bytes → BlobSteps}
    {row : LibraryRow} (h : row ∈ writtenRows steps rows) :
    isValidTraceId row.2.info.id = true := by
  have hends : blobEnds steps row = .done := of_decide_eq_true (List.mem_filter.mp h).2
  rw [blobEnds] at hends
  split at hends
  · assumption
  · cases hends

section

variable (steps : Bytes → BlobSteps)

theorem writeTrace_row (row : LibraryRow) (folder : SessionFolder) :
    ((writeTrace (steps row.2.info.id) row.2 folder).1 = none ↔ blobEnds steps row = .stops) ∧
    ((writeTrace (steps row.2.info.id) row.2 folder).1 = some .ok ↔ blobEnds steps row = .done) := by
  rw [blobEnds]
  split
  · rename_i hid
    rw [writeTrace_status hid]
    cases (steps row.2.info.id).ends <;> simp [StepEnd.status]
  · rename_i hid
    rw [writeTrace_of_invalid (Bool.of_not_eq_true hid)]
    simp

/-- One turn of the loop. -/
theorem saveRows_cons (row : LibraryRow) (rows : List LibraryRow)
    (folder : SessionFolder) (doc : SessionDocument) :
    saveRows steps (row :: rows) folder doc =
      match blobEnds steps row with
      | .stops => (none, (writeTrace (steps row.2.info.id) row.2 folder).2)
      | .fails => saveRows steps rows (writeTrace (steps row.2.info.id) row.2 folder).2 doc
      | .done => saveRows steps rows (writeTrace (steps row.2.info.id) row.2 folder).2
          { doc with captures := doc.captures ++ [row.2.info], entries := doc.entries ++ [row.1] } := by
  obtain ⟨hstops, hdone⟩ := writeTrace_row steps row folder
  rw [saveRows]
  cases hw : writeTrace (steps row.2.info.id) row.2 folder with
  | mk status folder' =>
    rw [hw] at hstops hdone
    cases hends : blobEnds steps row with
    | stops =>
      rw [show status = none from hstops.mpr hends]
    | done =>
      rw [show status = some .ok from hdone.mpr hends]
      rfl
    | fails =>
      cases hstatus : status with
      | none =>
        rw [hends] at hstops
        cases hstops.mp hstatus
      | some status' =>
        dsimp only
        rw [if_pos]
        rintro rfl
        rw [hends] at hdone
        cases hdone.mp hstatus

/-- The document the loop arrives at when the process does not stop in it. -/
theorem saveRows_result (hrows : ∀ row ∈ rows, blobEnds steps row ≠ .stops) (folder : SessionFolder)
    (doc : SessionDocument) :
    (saveRows steps rows folder doc).1 = some { doc with
      captures := doc.captures ++ (writtenRows steps rows).map (·.2.info)
      entries := doc.entries ++ (writtenRows steps rows).map (·.1) } := by
  induction rows generalizing folder doc with
  | nil => simp [saveRows]
  | cons row rows ih =>
    rw [List.forall_mem_cons] at hrows
    rw [saveRows_cons, writtenRows_cons]
    cases hends : blobEnds steps row with
    | stops => exact absurd hends hrows.1
    | fails => exact ih hrows.2 _ _
    | done => exact (ih hrows.2 _ _).trans (by simp)

theorem saveRows_stopped
    (hrows : ¬ ∀ row ∈ rows, blobEnds steps row ≠ .stops) (folder : SessionFolder)
    (doc : SessionDocument) : (saveRows steps rows folder doc).1 = none := by
  induction rows generalizing folder doc with
  | nil => exact absurd (fun row hrow => absurd hrow List.not_mem_nil) hrows
  | cons row rows ih =>
    rw [List.forall_mem_cons, not_and_or, not_not] at hrows
    rw [saveRows_cons]
    cases hends : blobEnds steps row with
    | stops => rfl
    | fails => exact ih (hrows.resolve_left (by rw [hends]; decide)) _ _
    | done => exact ih (hrows.resolve_left (by rw [hends]; decide)) _ _

/-- A name that is nobody's temporary one holds what it held, unless it is the blob of a capture
that came into place. -/
theorem saveRows_off_tmp (folder : SessionFolder) (doc : SessionDocument) {path : Bytes}
    (htmp : ∀ id, path ≠ traceBlobTmpPath id)
    (hpath : ∀ row ∈ writtenRows steps rows, path ≠ traceBlobPath row.2.info.id) :
    (saveRows steps rows folder doc).2 path = folder path := by
  have hwrite : ∀ {row : LibraryRow} {folder : SessionFolder},
      (blobEnds steps row = .done → path ≠ traceBlobPath row.2.info.id) →
      (writeTrace (steps row.2.info.id) row.2 folder).2 path = folder path := by
    rintro row folder hrow
    rw [writeTrace_off_tmp _ _ _ (htmp _), if_neg]
    rintro ⟨hpath, hid, hends⟩
    exact hrow (by rw [blobEnds, if_pos hid, hends]) hpath
  induction rows generalizing folder doc with
  | nil => rfl
  | cons row rows ih =>
    rw [writtenRows_cons] at hpath
    rw [saveRows_cons]
    cases hends : blobEnds steps row with
    | stops => exact hwrite fun h => by rw [hends] at h; cases h
    | fails =>
      rw [hends] at hpath
      exact (ih _ _ hpath).trans (hwrite fun h => by rw [hends] at h; cases h)
    | done =>
      rw [hends] at hpath
      exact (ih _ _ fun r hr => hpath r (List.mem_cons_of_mem _ hr)).trans
        (hwrite fun _ => hpath row List.mem_cons_self)

/-- A capture that came into place is under its id at the end: no later row has that id. -/
theorem saveRows_written
    (hnodup : (rows.map fun row => row.2.info.id).Nodup) (folder : SessionFolder)
    (doc : SessionDocument) {row : LibraryRow} (hrow : row ∈ writtenRows steps rows) :
    (saveRows steps rows folder doc).2 (traceBlobPath row.2.info.id) =
      some (encodeTraceBlob row.2) := by
  induction rows generalizing folder doc with
  | nil => exact absurd hrow List.not_mem_nil
  | cons first rows ih =>
    rw [List.map_cons, List.nodup_cons] at hnodup
    rw [writtenRows_cons] at hrow
    rw [saveRows_cons]
    cases hends : blobEnds steps first with
    | stops =>
      rw [hends] at hrow
      exact absurd hrow List.not_mem_nil
    | fails =>
      rw [hends] at hrow
      exact ih hnodup.2 _ _ hrow
    | done =>
      rw [hends] at hrow
      rcases List.mem_cons.mp hrow with rfl | hrow
      · have hid : isValidTraceId row.2.info.id = true ∧ (steps row.2.info.id).ends = .done := by
          rw [blobEnds] at hends
          split at hends
          · exact ⟨‹_›, hends⟩
          · cases hends
        refine (saveRows_off_tmp steps _ _ (traceBlobPath_ne_tmpPath _) fun r hr heq => ?_).trans ?_
        · rw [traceBlobPath_inj] at heq
          exact hnodup.1 (heq ▸ List.mem_map_of_mem ((writtenRows_sublist steps rows).subset hr))
        · rw [writeTrace_off_tmp _ _ _ (traceBlobPath_ne_tmpPath _ _), if_pos ⟨rfl, hid⟩]
      · exact ih hnodup.2 _ _ hrow

end

/-! ### The folder after a save -/

/-- What the index of a save names. -/
def Save.document (save : Save) : SessionDocument where
  captures := (writtenRows save.blob save.library.rows).map (·.2.info)
  entries := (writtenRows save.blob save.library.rows).map (·.1)
  panes := save.panes

theorem Save.ids_nodup (save : Save) :
    (save.library.rows.map fun row => row.2.info.id).Nodup := by
  have hids : (save.library.rows.map fun row => row.2.info.id) =
      save.library.rows.map fun row => row.1.traceId :=
    List.map_congr_left fun row hrow => (save.library.named row hrow).symm
  rw [hids]
  exact save.library.nodup

theorem performSave_of_replacesIndex {save : Save} (h : save.ReplacesIndex)
    (folder : SessionFolder) :
    (performSave nums save folder).1 = some .ok ∧
      (performSave nums save folder).2 kIndexName = some (encodeIndex nums save.document) := by
  have hdoc := saveRows_result save.blob h.1 folder { panes := save.panes }
  rw [performSave]
  cases hrows : saveRows save.blob save.library.rows folder { panes := save.panes } with
  | mk doc folder' =>
    rw [hrows] at hdoc
    rw [show doc = some save.document from hdoc]
    dsimp only
    rw [writeIndex_status, h.2, writeIndex_off_tmp _ _ _ _ indexName_ne_tmpName, if_pos ⟨rfl, h.2⟩]
    exact ⟨rfl, rfl⟩

theorem performSave_of_not_replacesIndex {save : Save} (h : ¬ save.ReplacesIndex)
    (folder : SessionFolder) :
    (performSave nums save folder).1 ≠ some .ok ∧
      (performSave nums save folder).2 kIndexName = folder kIndexName := by
  have hold : (saveRows save.blob save.library.rows folder { panes := save.panes }).2 kIndexName =
      folder kIndexName :=
    saveRows_off_tmp save.blob folder _ (fun id => (traceBlobTmpPath_ne_indexName id).symm)
      fun row _ => (traceBlobPath_ne_indexName row.2.info.id).symm
  have hstopped := fun hall : ¬ ∀ row ∈ save.library.rows, blobEnds save.blob row ≠ .stops =>
    saveRows_stopped save.blob hall folder { panes := save.panes }
  rw [performSave]
  cases hrows : saveRows save.blob save.library.rows folder { panes := save.panes } with
  | mk doc folder' =>
    rw [hrows] at hold hstopped
    cases doc with
    | none => exact ⟨by simp, hold⟩
    | some doc =>
      have hends : save.index.ends ≠ .done := by
        rintro hdone
        by_cases hall : ∀ row ∈ save.library.rows, blobEnds save.blob row ≠ .stops
        · exact h ⟨hall, hdone⟩
        · cases hstopped hall
      dsimp only
      rw [writeIndex_status, writeIndex_off_tmp _ _ _ _ indexName_ne_tmpName,
        if_neg fun h => hends h.2]
      refine ⟨?_, hold⟩
      cases hends' : save.index.ends with
      | done => exact absurd hends' hends
      | fails => simp [StepEnd.status]
      | stops => simp [StepEnd.status]

theorem reports_iff (save : Save) (folder : SessionFolder) :
    save.Reports nums folder ↔ save.ReplacesIndex := by
  rw [Save.Reports]
  constructor
  · intro hok
    by_contra h
    exact (performSave_of_not_replacesIndex nums h folder).1 hok
  · exact fun h => (performSave_of_replacesIndex nums h folder).1

/-- The index is written after the blobs and touches none of them. -/
theorem performSave_blobPath (save : Save) (folder : SessionFolder) (id : Bytes) :
    (performSave nums save folder).2 (traceBlobPath id) =
      (saveRows save.blob save.library.rows folder { panes := save.panes }).2 (traceBlobPath id) := by
  rw [performSave]
  split
  · rename_i hrows
    rw [hrows]
  · rename_i hrows
    rw [hrows, writeIndex_off_tmp _ _ _ _ (traceBlobPath_ne_indexTmpName id),
      if_neg fun h => traceBlobPath_ne_indexName id h.1]

/-! ### Reading it -/

variable {m : CaptureMeta}

variable {save : Save} {folder : SessionFolder}

theorem load_eq_readBlob {blob : Bytes}
    (hid : isValidTraceId m.id = true) (hblob : folder (traceBlobPath m.id) = some blob) :
    load folder m = (readBlob blob m).2 := by
  have hread : SessionStore.readTrace folder m = readBlob blob m := by
    rw [SessionStore.readTrace, if_neg (fun h => absurd (h.symm.trans hid) (by decide)), hblob]
  rw [load, hread]
  rcases readBlob_cases blob m with h | ⟨tr, -, h⟩
  · rw [h]
    rfl
  · rw [h]
    rfl

theorem load_congr {f g : SessionFolder}
    (h : f (traceBlobPath m.id) = g (traceBlobPath m.id)) : load f m = load g m := by
  rw [load, load, SessionStore.readTrace, SessionStore.readTrace, h]

theorem load_performSave_written {row : LibraryRow}
    (hrow : row ∈ writtenRows save.blob save.library.rows)
    (hm : m.id = row.2.info.id) (folder : SessionFolder) :
    load (performSave nums save folder).2 m = (readBlob (encodeTraceBlob row.2) m).2 := by
  refine load_eq_readBlob (hm ▸ valid_of_mem_writtenRows hrow) ?_
  rw [performSave_blobPath, hm]
  exact saveRows_written save.blob save.ids_nodup folder _ hrow

/-- Any other is read as before. -/
theorem load_performSave_other
    (hm : ∀ row ∈ writtenRows save.blob save.library.rows, m.id ≠ row.2.info.id)
    (folder : SessionFolder) : load (performSave nums save folder).2 m = load folder m := by
  refine load_congr ?_
  rw [performSave_blobPath]
  refine saveRows_off_tmp save.blob folder _ (traceBlobPath_ne_tmpPath _) fun row hrow heq => ?_
  exact hm row hrow (traceBlobPath_inj.mp heq)

theorem readIndex_congr {f g : SessionFolder} (h : f kIndexName = g kIndexName) :
    readIndex nums f = readIndex nums g := by rw [readIndex, readIndex, h]

theorem readIndex_performSave (h : save.ReplacesIndex) (folder : SessionFolder) :
    readIndex nums (performSave nums save folder).2 = (.ok, save.document.stripped) := by
  rw [readIndex, (performSave_of_replacesIndex nums h folder).2]
  dsimp only
  rw [decodeIndex_encodeIndex nums (show save.document.schemaVersion ≤ kSchemaVersion from
    Int.le_refl _)]
  rfl

/-- A refused index leaves nothing behind. -/
theorem readIndex_of_ne_ok (h : (readIndex nums folder).1 ≠ .ok) :
    (readIndex nums folder).2 = {} := by
  rw [readIndex] at h ⊢
  split at h
  · rfl
  · refine decodeIndex_refused nums _ _ _ fun hok => h ?_
    dsimp only
    rw [hok]
    rfl

/-! ### A session that was saved -/

/-- A row as it is read back. -/
def LibraryRow.stripped (row : LibraryRow) : LibraryRow :=
  (row.1.stripped,
    { row.2 with info := row.2.info.stripped, magnitude_length := row.2.magnitude_length })

theorem LibraryRow.stripped_eq_self_iff (row : LibraryRow) :
    LibraryRow.stripped row = row ↔ ∀ t ∈ LibraryRow.texts row, ¬ EndsInCr t := by
  have htrace : (LibraryRow.stripped row).2 = row.2 ↔ row.2.info.stripped = row.2.info := by
    constructor
    · exact fun h => congrArg Trace.info h
    · exact fun h => Trace.ext h rfl rfl rfl
  rw [Prod.ext_iff, htrace]
  show row.1.stripped = row.1 ∧ _ ↔ _
  rw [LibraryEntry.stripped_eq_self_iff, CaptureMeta.stripped_eq_self_iff, ← List.forall_mem_append]
  rfl

theorem find?_of_nodup {α : Type} {key : α → Bytes} {l : List α} (hnodup : (l.map key).Nodup)
    {x : α} (hx : x ∈ l) : l.find? (fun y => key y = key x) = some x := by
  cases h : l.find? (fun y => key y = key x) with
  | none => exact absurd (decide_eq_true rfl) (List.find?_eq_none.mp h x hx)
  | some y =>
    have hkey := List.find?_some h
    exact congrArg some (List.inj_on_of_nodup_map hnodup (List.mem_of_find?_eq_some h) hx
      (of_decide_eq_true hkey))

theorem stripCr_of_valid {id : Bytes} (h : isValidTraceId id = true) : stripCr id = id :=
  stripCr_eq_self_iff.mpr (isValidTraceId_not_endsInCr h)

section Replaced

variable {save : Save}

/-- A row that came into place keeps its id through the index. -/
theorem id_stripped_of_written {row : LibraryRow}
    (hrow : row ∈ writtenRows save.blob save.library.rows) :
    row.2.info.stripped.id = row.2.info.id ∧ row.1.stripped.traceId = row.2.info.id := by
  have hid := valid_of_mem_writtenRows hrow
  have hnamed := save.library.named row ((writtenRows_sublist _ _).subset hrow)
  refine ⟨stripCr_of_valid hid, ?_⟩
  show stripCr row.1.traceId = _
  rw [hnamed, stripCr_of_valid hid]

theorem document_ids_nodup :
    (save.document.stripped.captures.map (·.id)).Nodup ∧
      (save.document.stripped.entries.map (·.traceId)).Nodup := by
  have hnodup : ((writtenRows save.blob save.library.rows).map fun row => row.2.info.id).Nodup :=
    ((writtenRows_sublist _ _).map _).nodup save.ids_nodup
  have hcaptures : save.document.stripped.captures.map (·.id) =
      (writtenRows save.blob save.library.rows).map fun row => row.2.info.id := by
    simp only [SessionDocument.stripped, Save.document, List.map_map]
    exact List.map_congr_left fun row hrow => (id_stripped_of_written hrow).1
  have hentries : save.document.stripped.entries.map (·.traceId) =
      (writtenRows save.blob save.library.rows).map fun row => row.2.info.id := by
    simp only [SessionDocument.stripped, Save.document, List.map_map]
    exact List.map_congr_left fun row hrow => (id_stripped_of_written hrow).2
  rw [hcaptures, hentries]
  exact ⟨hnodup, hnodup⟩

/-- No run of saves leaves an index that names an id twice. -/
theorem indexDistinct_performSave (save : Save) {folder : SessionFolder}
    (h : IndexDistinct nums folder) : IndexDistinct nums (performSave nums save folder).2 := by
  rw [IndexDistinct]
  by_cases hreplaces : save.ReplacesIndex
  · rw [readIndex_performSave nums hreplaces]
    exact document_ids_nodup.1
  · rw [readIndex_congr nums (performSave_of_not_replacesIndex nums hreplaces folder).2]
    exact h

theorem indexDistinct_folderAfter {start : SessionFolder} (h : IndexDistinct nums start)
    (saves : List Save) : IndexDistinct nums (folderAfter nums start saves) := by
  induction saves generalizing start with
  | nil => exact h
  | cons save saves ih => exact ih (indexDistinct_performSave nums save h)

variable (hint : ∀ row ∈ save.library.rows, row.2.info.fftSize < 2 ^ 31)
include hint

/-- What Open holds of a session that was saved. -/
theorem loadTraces_performSave (folder : SessionFolder) :
    (loadTraces (performSave nums save folder).2 save.document.stripped).map (·.row) =
      (writtenRows save.blob save.library.rows).map LibraryRow.stripped := by
  have hload : ∀ row ∈ writtenRows save.blob save.library.rows,
      load (performSave nums save folder).2 row.2.info.stripped =
        some (LibraryRow.stripped row).2 := by
    intro row hrow
    have hmem := (writtenRows_sublist _ _).subset hrow
    rw [load_performSave_written nums hrow (id_stripped_of_written hrow).1 folder,
      readBlob_encodeTraceBlob (Trace.pointCount_lt (hint row hmem))
        (isValidTraceId_length (valid_of_mem_writtenRows hrow)) (id_stripped_of_written hrow).1 rfl]
    rfl
  have hrow : ∀ row ∈ writtenRows save.blob save.library.rows,
      (LoadedTrace.describe save.document.stripped.entries (LibraryRow.stripped row).2).row =
        LibraryRow.stripped row := by
    intro row hrow
    have hentry : row.1.stripped ∈ save.document.stripped.entries :=
      List.mem_map_of_mem (List.mem_map_of_mem hrow)
    have hid : (LibraryRow.stripped row).2.info.id = row.1.stripped.traceId :=
      (id_stripped_of_written hrow).1.trans (id_stripped_of_written hrow).2.symm
    refine LoadedTrace.row_describe (e := row.1.stripped) ?_
    rw [hid]
    exact find?_of_nodup document_ids_nodup.2 hentry
  have hcaptures : save.document.stripped.captures =
      (writtenRows save.blob save.library.rows).map fun row => row.2.info.stripped := by
    simp only [SessionDocument.stripped, Save.document, List.map_map, Function.comp_def]
  rw [loadTraces, hcaptures, List.filterMap_map, List.map_filterMap]
  refine (List.filterMap_congr fun row hmem => ?_).trans
    (congrFun (List.filterMap_eq_map (f := LibraryRow.stripped)) _)
  simp only [Function.comp_apply]
  rw [hload row hmem, Option.map_some, Option.map_some, hrow row hmem]

theorem performOpen_performSave (hreplaces : save.ReplacesIndex) (folder : SessionFolder)
    (shown : TraceLibrary) :
    (performOpen nums (performSave nums save folder).2 shown).2.rows =
      (writtenRows save.blob save.library.rows).map LibraryRow.stripped := by
  have hrows := loadTraces_performSave nums hint folder
  refine (performOpen_rows nums shown (readIndex_performSave nums hreplaces folder)
    document_ids_nodup.1 ?_).2.trans hrows
  by_cases hwritten : writtenRows save.blob save.library.rows = []
  · refine .inr ?_
    rw [SessionDocument.stripped, Save.document, hwritten]
    rfl
  · refine .inl fun hnone => hwritten ?_
    rw [hnone] at hrows
    exact List.map_eq_nil_iff.mp hrows.symm

end Replaced

theorem writtenRows_eq_self_iff {steps : Bytes → BlobSteps} :
    writtenRows steps rows = rows ↔ ∀ row ∈ rows, blobEnds steps row = .done := by
  constructor
  · intro h row hrow
    rw [← h] at hrow
    exact of_decide_eq_true (List.mem_filter.mp hrow).2
  · intro h
    induction rows with
    | nil => rfl
    | cons row rows ih =>
      rw [List.forall_mem_cons] at h
      rw [writtenRows_cons, h.1, ih h.2]

theorem keeps_iff_safe {folder : SessionFolder} (hdistinct : IndexDistinct nums folder) {save : Save}
    (hint : ∀ row ∈ save.library.rows, row.2.info.fftSize < 2 ^ 31) :
    save.Keeps nums folder ↔ save.Safe nums folder := by
  rw [Save.Keeps, Save.Safe, reports_iff]
  refine and_congr (imp_congr_right fun hreplaces => ?_) (imp_congr_right fun hreplaces => ?_)
  · -- the index is replaced: the rows that were written, as they are read back
    simp only [performOpen_performSave nums hint hreplaces folder, forall_const, forall_and]
    constructor
    · intro hrows
      have hwritten : writtenRows save.blob save.library.rows = save.library.rows := by
        refine (writtenRows_sublist _ _).eq_of_length ?_
        rw [← List.length_map (f := LibraryRow.stripped), hrows]
      rw [hwritten, map_eq_self_iff] at hrows
      exact ⟨writtenRows_eq_self_iff.mp hwritten,
        fun row hrow => (LibraryRow.stripped_eq_self_iff row).mp (hrows row hrow)⟩
    · rintro ⟨hdone, htexts⟩
      rw [writtenRows_eq_self_iff.mpr hdone, map_eq_self_iff]
      exact fun row hrow => (LibraryRow.stripped_eq_self_iff row).mpr (htexts row hrow)
  · -- it is not: the old index over the blobs that came into place
    have hindex := readIndex_congr nums (performSave_of_not_replacesIndex nums hreplaces folder).2
    have hload : (∀ m ∈ (readIndex nums folder).2.captures,
          load (performSave nums save folder).2 m = load folder m) ↔
        ∀ row ∈ writtenRows save.blob save.library.rows,
          ∀ m ∈ (readIndex nums folder).2.captures, m.id = row.2.info.id →
            load folder m = (readBlob (encodeTraceBlob row.2) m).2 := by
      constructor
      · intro h row hrow m hm hid
        rw [← h m hm, load_performSave_written nums hrow hid]
      · intro h m hm
        by_cases hother : ∀ row ∈ writtenRows save.blob save.library.rows, m.id ≠ row.2.info.id
        · exact load_performSave_other nums hother folder
        · push Not at hother
          obtain ⟨row, hrow, hid⟩ := hother
          rw [load_performSave_written nums hrow hid, h row hrow m hm hid]
    rw [← hload]
    by_cases hok : (readIndex nums folder).1 = .ok
    · have hread : readIndex nums folder = (.ok, (readIndex nums folder).2) := Prod.ext hok rfl
      exact performOpen_congr_iff nums (hindex.trans hread) hread hdistinct
    · rw [readIndex_of_ne_ok nums hok]
      refine ⟨fun _ m hm => absurd hm List.not_mem_nil, fun _ shown => ?_⟩
      refine performOpen_congr nums hindex ?_ shown
      rw [readIndex_of_ne_ok nums hok]
      exact fun m hm => absurd hm List.not_mem_nil

/-- **Headline.** Whatever saves were made in the folder before, by whichever processes and with
whichever of their steps failing, a save keeps its promise if and only if it is safe: where it
replaces the index, every capture has a valid id, no step of its blob fails and no text of it ends
in a carriage return; where it does not, no blob that came into place is read by the old index as
anything but what it read before. -/
theorem performSave_keeps_iff {start : SessionFolder} (hstart : IndexDistinct nums start)
    (earlier : List Save) {save : Save}
    (hint : ∀ row ∈ save.library.rows, row.2.info.fftSize < 2 ^ 31) :
    save.Keeps nums (folderAfter nums start earlier) ↔
      save.Safe nums (folderAfter nums start earlier) :=
  keeps_iff_safe nums (indexDistinct_folderAfter nums hstart earlier) hint

/-! ### Two saves that break the promise -/

/-- A folder nothing was ever saved in. -/
def newFolder : SessionFolder := fun _ => none

theorem indexDistinct_newFolder : IndexDistinct nums newFolder := List.nodup_nil

/-- A library of one capture. -/
def libraryOf (tr : Trace UInt32) : TraceLibrary := (TraceLibrary.empty.add tr (bytes "left") []).2

/-- The first capture of a process. -/
def firstCapture : Trace UInt32 := twoPointTrace (bytes "capture-0")

/-- The first capture of another process: it has the same id and other columns. -/
def otherFirstCapture : Trace UInt32 :=
  { firstCapture with
    magnitude := [0, 0], magnitude_ne_nil := List.cons_ne_nil _ _
    magnitude_length := firstCapture.magnitude_length
    phase_length := .inl rfl, coherence_length := .inr rfl }

/-- A save with nothing going wrong. -/
def goodSave : Save := { library := libraryOf firstCapture }

/-- A save after it, the blob of whose one capture cannot be flushed. -/
def lossySave : Save :=
  { library := libraryOf firstCapture, blob := fun _ => { close := .fails } }

/-- A save by a later process, which stops once the blobs are written. -/
def overwritingSave : Save :=
  { library := libraryOf otherFirstCapture, index := { createDirectories := .stops } }

theorem goodSave_replacesIndex : goodSave.ReplacesIndex := by
  rw [Save.ReplacesIndex]
  decide

/-- The session of a good save is kept by a good one over it. -/
theorem performSave_keeps_goodSave :
    goodSave.Keeps decimalNumbers (folderAfter decimalNumbers newFolder [goodSave]) := by
  refine (performSave_keeps_iff decimalNumbers (indexDistinct_newFolder _) [goodSave]
    (by decide)).mpr ⟨fun _ => ?_, fun h => absurd goodSave_replacesIndex h⟩
  decide

/-- A session is reported as saved and its capture is gone; and a save that never got to the index
has replaced the columns of a capture the index names. -/
theorem performSave_breaks_promise :
    ¬ lossySave.Keeps decimalNumbers newFolder ∧
      ¬ overwritingSave.Keeps decimalNumbers (folderAfter decimalNumbers newFolder [goodSave]) := by
  constructor
  · rw [keeps_iff_safe decimalNumbers (indexDistinct_newFolder _) (by decide), Save.Safe]
    intro h
    have hreplaces : lossySave.ReplacesIndex := by
      rw [Save.ReplacesIndex]
      decide
    have hdone := h.1 hreplaces
    exact absurd hdone (by decide)
  · rw [keeps_iff_safe decimalNumbers (indexDistinct_folderAfter _ (indexDistinct_newFolder _) _)
      (by decide), Save.Safe]
    intro h
    have hstops : ¬ overwritingSave.ReplacesIndex := by
      rw [Save.ReplacesIndex]
      decide
    have hindex : firstCapture.info ∈ (readIndex decimalNumbers
        (performSave decimalNumbers goodSave newFolder).2).2.captures := by
      rw [readIndex_performSave decimalNumbers goodSave_replacesIndex]
      decide
    have hread := h.2 hstops _ List.mem_cons_self firstCapture.info hindex rfl
    have hwritten : ((libraryOf firstCapture).rows.head (by decide)) ∈
        writtenRows goodSave.blob goodSave.library.rows := List.mem_cons_self
    have hgood : load (performSave decimalNumbers goodSave newFolder).2 firstCapture.info =
        (readBlob (encodeTraceBlob firstCapture) firstCapture.info).2 :=
      load_performSave_written decimalNumbers hwritten rfl newFolder
    -- the capture of the good save is read, and then the one written over it
    have hsame := hgood.symm.trans hread
    exact absurd (congrArg (Option.map Trace.magnitude) hsame) (by decide +kernel)

end RtaTool
