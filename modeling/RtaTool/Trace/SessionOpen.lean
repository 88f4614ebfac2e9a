import RtaTool.Trace.SessionStore

/-!
# Opening a session

`MainComponentSession::performOpen`: every capture the index names is read first, and only then is
the library replaced. An index that is refused, or one whose captures are all unreadable, leaves
the library as it is; a capture that cannot be read is skipped and counted.

The panes of the document go through `normalisePanes` to the caller's layout. They are part of the
readout here and nothing is said of what the layout makes of them.

## Main definitions

* `SessionStore.load`, `LoadedTrace`, `loadTraces`
* `OpenReadout`, `performOpen`

## Main results

* `addLoaded_rows`, `addAll_rows` -- the rows of a library filled from captures with distinct ids
* `mem_ids_addAll` -- the ids of a library filled from any captures
* `performOpen_congr_iff` -- two folders with the same index open alike exactly when they read
  alike on every capture it names
-/

namespace RtaTool

/-- `LoadedTrace`. -/
structure LoadedTrace where
  trace : Trace UInt32
  name : Bytes
  group : Bytes
  shadeIndex : ℤ
  visible : Bool

namespace LoadedTrace

/-- The row it becomes. -/
def row (item : LoadedTrace) : LibraryRow :=
  (⟨item.trace.info.id, item.name, item.group, item.shadeIndex, item.visible⟩, item.trace)

/-- What Open keeps of a capture and of the first entry with its id. -/
def describe (entries : List LibraryEntry) (tr : Trace UInt32) : LoadedTrace :=
  match entries.find? fun e => e.traceId = tr.info.id with
  | some e => ⟨tr, e.name, e.group, e.shadeIndex, e.visible⟩
  | none => ⟨tr, tr.info.id, [], 0, true⟩

@[simp] theorem describe_trace (entries : List LibraryEntry) (tr : Trace UInt32) :
    (describe entries tr).trace = tr := by
  rw [describe]
  split <;> rfl

theorem row_describe {entries : List LibraryEntry} {tr : Trace UInt32} {e : LibraryEntry}
    (h : entries.find? (fun e => e.traceId = tr.info.id) = some e) :
    (describe entries tr).row = (e, tr) := by
  have hfound := List.find?_some h
  have hid : e.traceId = tr.info.id := of_decide_eq_true hfound
  rw [describe, h, row, ← hid]

end LoadedTrace

/-- One capture as Open reads it: skipped unless its blob is there and decodes. -/
def SessionStore.load (folder : SessionFolder) (capture : CaptureMeta) : Option (Trace UInt32) :=
  if (SessionStore.readTrace folder capture).1 ≠ .ok then none
  else (SessionStore.readTrace folder capture).2

/-- The captures Open holds before it touches the library. -/
def loadTraces (folder : SessionFolder) (doc : SessionDocument) : List LoadedTrace :=
  doc.captures.filterMap fun capture =>
    (SessionStore.load folder capture).map (LoadedTrace.describe doc.entries)

/-- How many are skipped. -/
def skippedTraces (folder : SessionFolder) (doc : SessionDocument) : ℕ :=
  doc.captures.countP fun capture => (SessionStore.load folder capture).isNone

/-- What Open shows: a refusal with its reason, or how many captures it skipped and the panes it
hands on. -/
inductive OpenReadout
  | refused (status : StoreStatus)
  | noReadableTraces
  | opened (skipped : ℕ) (panes : List PaneSpec)
  deriving DecidableEq

/-- One turn of the loop that fills the library. -/
def addLoaded (lib : TraceLibrary) (item : LoadedTrace) : TraceLibrary :=
  let (id, lib) := lib.add item.trace item.name item.group
  if id = [] then lib
  else
    let lib := if item.visible then lib else (lib.setVisible id false).2
    (lib.setShadeIndex id item.shadeIndex).2

variable (nums : NumberText)

/-- `performOpen(folder)` over the library shown before. -/
def performOpen (folder : SessionFolder) (library : TraceLibrary) : OpenReadout × TraceLibrary :=
  let (status, doc) := SessionStore.readIndex nums folder
  if status ≠ .ok then (.refused status, library)
  else if (loadTraces folder doc).isEmpty ∧ doc.captures ≠ [] then (.noReadableTraces, library)
  else
    (.opened (skippedTraces folder doc) doc.panes,
      (loadTraces folder doc).foldl addLoaded library.clear)

/-! ### Filling the library -/

theorem SessionStore.info_of_load {folder : SessionFolder} {capture : CaptureMeta}
    {tr : Trace UInt32} (h : SessionStore.load folder capture = some tr) :
    tr.info = capture ∧ SessionStore.isValidTraceId capture.id = true := by
  rw [load] at h
  rcases readTrace_cases folder capture with ⟨hne, -⟩ | ⟨t, hinfo, hid, hok⟩
  · rw [if_pos hne] at h
    cases h
  · rw [hok, if_neg (not_not.mpr rfl)] at h
    cases h
    exact ⟨hinfo, hid⟩

variable {lib : TraceLibrary}

variable {doc : SessionDocument} {f g : SessionFolder} {item : LoadedTrace}
  {items : List LoadedTrace} {folder : SessionFolder}

/-- A capture with a new id is appended, under the entry it was loaded with. -/
theorem addLoaded_rows (hnew : item.trace.info.id ∉ lib.ids) (hne : item.trace.info.id ≠ []) :
    (addLoaded lib item).rows = lib.rows ++ [item.row] := by
  obtain ⟨hid, hrows⟩ := TraceLibrary.add_of_not_mem hnew item.name item.group
  have hlast : ∀ (e : LibraryEntry) (f : LibraryEntry → LibraryEntry),
      e.traceId = item.trace.info.id →
      TraceLibrary.editRows item.trace.info.id f (lib.rows ++ [(e, item.trace)]) =
        lib.rows ++ [(f e, item.trace)] := by
    rintro e f he
    rw [← he] at hnew ⊢
    exact TraceLibrary.editRows_append_self (e, item.trace) hnew f
  simp only [addLoaded, hid, if_neg hne, TraceLibrary.setShadeIndex, TraceLibrary.edit_rows]
  split
  · rename_i hvisible
    rw [hrows, hlast _ _ rfl, LoadedTrace.row, hvisible]
  · rename_i hhidden
    rw [TraceLibrary.setVisible, TraceLibrary.edit_rows, hrows, hlast _ _ rfl, hlast _ _ rfl,
      LoadedTrace.row, Bool.of_not_eq_true hhidden]

theorem mem_ids_addLoaded {id : Bytes} :
    id ∈ (addLoaded lib item).ids ↔ id ∈ lib.ids ∨ id = item.trace.info.id := by
  rw [← TraceLibrary.mem_ids_add item.name item.group, addLoaded]
  dsimp only
  split
  · exact Iff.rfl
  · rw [TraceLibrary.setShadeIndex, TraceLibrary.edit_ids]
    split
    · exact Iff.rfl
    · rw [TraceLibrary.setVisible, TraceLibrary.edit_ids]

/-- The ids of a library that has been filled. -/
theorem mem_ids_addAll {id : Bytes} :
    id ∈ (items.foldl addLoaded lib).ids ↔
      id ∈ lib.ids ∨ id ∈ items.map fun item => item.trace.info.id := by
  induction items generalizing lib with
  | nil => simp
  | cons item items ih =>
    rw [List.foldl_cons, ih, mem_ids_addLoaded, List.map_cons, List.mem_cons, or_assoc]

/-- The rows of a library that has been filled from captures with distinct ids, all new to it. -/
theorem addAll_rows (hnodup : (items.map fun item => item.trace.info.id).Nodup)
    (hne : ∀ item ∈ items, item.trace.info.id ≠ [])
    (hnew : ∀ item ∈ items, item.trace.info.id ∉ lib.ids) :
    (items.foldl addLoaded lib).rows = lib.rows ++ items.map (·.row) := by
  induction items generalizing lib with
  | nil => simp
  | cons item items ih =>
    rw [List.map_cons, List.nodup_cons] at hnodup
    have hitem := addLoaded_rows (hnew item List.mem_cons_self) (hne item List.mem_cons_self)
    rw [List.foldl_cons, ih hnodup.2 (fun i hi => hne i (List.mem_cons_of_mem _ hi)), hitem,
      List.map_cons, List.append_assoc, List.singleton_append]
    intro i hi hmem
    rcases mem_ids_addLoaded.mp hmem with hold | heq
    · exact hnew i (List.mem_cons_of_mem _ hi) hold
    · exact hnodup.1 (heq ▸ List.mem_map_of_mem hi)

/-! ### What an Open reads -/

theorem mem_loadTraces (h : item ∈ loadTraces folder doc) :
    item.trace.info ∈ doc.captures ∧ item.trace.info.id ≠ [] := by
  obtain ⟨capture, hcapture, hload⟩ := List.mem_filterMap.mp h
  obtain ⟨tr, htr, rfl⟩ := Option.map_eq_some_iff.mp hload
  obtain ⟨hinfo, hid⟩ := SessionStore.info_of_load htr
  rw [LoadedTrace.describe_trace, hinfo]
  exact ⟨hcapture, SessionStore.isValidTraceId_ne_nil hid⟩

/-- The captures that were read, in the order of the index. -/
theorem loadTraces_infos (folder : SessionFolder) (captures : List CaptureMeta)
    (entries : List LibraryEntry) :
    ((captures.filterMap fun capture =>
        (SessionStore.load folder capture).map (LoadedTrace.describe entries)).map
      fun item => item.trace.info).Sublist captures := by
  induction captures with
  | nil => exact List.Sublist.refl _
  | cons capture captures ih =>
    rw [List.filterMap_cons]
    cases hload : SessionStore.load folder capture with
    | none => exact ih.cons capture
    | some tr =>
      rw [Option.map_some]
      dsimp only
      rw [List.map_cons, LoadedTrace.describe_trace, (SessionStore.info_of_load hload).1]
      exact ih.cons_cons capture

theorem performOpen_rows (library : TraceLibrary)
    (hindex : SessionStore.readIndex nums folder = (.ok, doc))
    (hnodup : (doc.captures.map (·.id)).Nodup)
    (hloaded : loadTraces folder doc ≠ [] ∨ doc.captures = []) :
    performOpen nums folder library =
      (.opened (skippedTraces folder doc) doc.panes,
        (loadTraces folder doc).foldl addLoaded library.clear) ∧
    (performOpen nums folder library).2.rows = (loadTraces folder doc).map (·.row) := by
  have hopened : performOpen nums folder library =
      (.opened (skippedTraces folder doc) doc.panes,
        (loadTraces folder doc).foldl addLoaded library.clear) := by
    rw [performOpen, hindex]
    dsimp only
    rw [if_neg (not_not.mpr rfl), if_neg]
    rintro ⟨hempty, hsome⟩
    exact hloaded.elim (fun h => h (List.isEmpty_iff.mp hempty)) hsome
  refine ⟨hopened, ?_⟩
  rw [hopened, addAll_rows, TraceLibrary.clear_rows, List.nil_append]
  · have hsub := (loadTraces_infos folder doc.captures doc.entries).map (·.id)
    rw [List.map_map] at hsub
    exact hsub.nodup hnodup
  · exact fun item hitem => (mem_loadTraces hitem).2
  · exact fun item _ => by simp

theorem performOpen_congr (hindex : SessionStore.readIndex nums f = SessionStore.readIndex nums g)
    (hload : ∀ m ∈ (SessionStore.readIndex nums g).2.captures,
      SessionStore.load f m = SessionStore.load g m) (library : TraceLibrary) :
    performOpen nums f library = performOpen nums g library := by
  have htraces : loadTraces f (SessionStore.readIndex nums g).2 =
      loadTraces g (SessionStore.readIndex nums g).2 :=
    List.filterMap_congr fun m hm => by rw [hload m hm]
  have hskipped : skippedTraces f (SessionStore.readIndex nums g).2 =
      skippedTraces g (SessionStore.readIndex nums g).2 :=
    List.countP_congr fun m hm => by rw [hload m hm]
  rw [performOpen, performOpen, hindex]
  dsimp only
  rw [htraces, hskipped]

/-- Captures with distinct ids: what was read of each is in the list of what was read. -/
theorem load_eq_of_filterMap_eq {captures : List CaptureMeta} (entries : List LibraryEntry)
    (h : ((captures.filterMap fun m =>
          (SessionStore.load f m).map (LoadedTrace.describe entries)).map (·.trace)) =
      ((captures.filterMap fun m =>
          (SessionStore.load g m).map (LoadedTrace.describe entries)).map (·.trace))) :
    ∀ m ∈ captures, SessionStore.load f m = SessionStore.load g m := by
  have hread : ∀ {k : SessionFolder} {m : CaptureMeta} {tr : Trace UInt32}, m ∈ captures →
      (SessionStore.load k m = some tr ↔ tr.info = m ∧
        tr ∈ (captures.filterMap fun m =>
          (SessionStore.load k m).map (LoadedTrace.describe entries)).map (·.trace)) := by
    intro k m tr hm
    constructor
    · intro hload
      refine ⟨(SessionStore.info_of_load hload).1, List.mem_map.mpr
        ⟨LoadedTrace.describe entries tr, List.mem_filterMap.mpr ⟨m, hm, ?_⟩,
          LoadedTrace.describe_trace entries tr⟩⟩
      rw [hload, Option.map_some]
    · rintro ⟨hinfo, hmem⟩
      obtain ⟨item, hitem, rfl⟩ := List.mem_map.mp hmem
      obtain ⟨m', -, hload⟩ := List.mem_filterMap.mp hitem
      obtain ⟨tr, htr, rfl⟩ := Option.map_eq_some_iff.mp hload
      rw [LoadedTrace.describe_trace] at hinfo ⊢
      have hm' := (SessionStore.info_of_load htr).1
      rwa [← hinfo, hm']
  intro m hm
  refine Option.ext fun tr => ?_
  rw [hread hm, hread hm, h]

/-- **Headline.** Two folders with the same readable index that names no id twice open alike, over
any library, exactly when they read alike on every capture the index names. -/
theorem performOpen_congr_iff (hf : SessionStore.readIndex nums f = (.ok, doc))
    (hg : SessionStore.readIndex nums g = (.ok, doc))
    (hnodup : (doc.captures.map (·.id)).Nodup) :
    (∀ library, performOpen nums f library = performOpen nums g library) ↔
      ∀ m ∈ doc.captures, SessionStore.load f m = SessionStore.load g m := by
  constructor
  · intro h
    have hopen := h TraceLibrary.empty
    by_cases hcaptures : doc.captures = []
    · rw [hcaptures]
      exact fun m hm => absurd hm List.not_mem_nil
    refine load_eq_of_filterMap_eq doc.entries ?_
    have hrefused : ∀ {k : SessionFolder}, SessionStore.readIndex nums k = (.ok, doc) →
        loadTraces k doc = [] → performOpen nums k TraceLibrary.empty =
          (.noReadableTraces, TraceLibrary.empty) := by
      intro k hk hnone
      rw [performOpen, hk]
      dsimp only
      rw [if_neg (not_not.mpr rfl), if_pos ⟨by rw [hnone]; rfl, hcaptures⟩]
    show (loadTraces f doc).map (·.trace) = (loadTraces g doc).map (·.trace)
    by_cases hfnone : loadTraces f doc = [] <;> by_cases hgnone : loadTraces g doc = []
    · rw [hfnone, hgnone]
    · obtain ⟨hgopen, -⟩ := performOpen_rows nums TraceLibrary.empty hg hnodup
        (.inl hgnone)
      rw [hrefused hf hfnone, hgopen] at hopen
      cases congrArg Prod.fst hopen
    · obtain ⟨hfopen, -⟩ := performOpen_rows nums TraceLibrary.empty hf hnodup
        (.inl hfnone)
      rw [hrefused hg hgnone, hfopen] at hopen
      cases congrArg Prod.fst hopen
    · have hfrows := (performOpen_rows nums TraceLibrary.empty hf hnodup
        (.inl hfnone)).2
      have hgrows := (performOpen_rows nums TraceLibrary.empty hg hnodup
        (.inl hgnone)).2
      rw [hopen, hgrows] at hfrows
      have htraces := congrArg (List.map Prod.snd) hfrows
      rw [List.map_map, List.map_map] at htraces
      exact htraces.symm
  · intro h
    exact performOpen_congr nums (hf.trans hg.symm) (by rw [hg]; exact h)

end RtaTool
