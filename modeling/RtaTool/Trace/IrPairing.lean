import RtaTool.Trace.FilingRuns

/-!
# Traces and impulse responses

`IrStore.h`, `MainComponentSweep::finish`, and the pickers of ALIGN and RT60: a sweep files its
trace in the library and its impulse response in a store of its own, both under the trace's id, and
the pickers put the two together again by that id.

The store lives as long as the process and Open does not touch it, though it replaces the library.
Within one process the pairing is sound, because an id is given once. Across processes it is not:
a folder may bring another process's trace under an id this process has an impulse response for.

## Main definitions

* `Paired` -- an impulse response found under the id of a trace in the library came out of the same
  analysis as that trace
* `rt60Choices`, `alignChoices` -- what the pickers offer
* `OpensOwn` -- what an opened folder gives under an id of the store this process filed itself

## Main results

* `Paired.rt60Choices`, `Paired.alignChoices` -- no picker offers a trace with another's response
* `pairing_kept` -- **Headline.** In a run whose opens bring back, under the ids of the store, only
  what the process filed, every state is paired; an Open of a folder that names no id twice and
  gives something else leads to a state that is not
-/

namespace RtaTool

open SessionStore

variable {I : Type}

/-- An impulse response found under the id of a trace in the library is the one that was analysed
together with it. -/
def Paired (s : FilingState I) : Prop :=
  ∀ row ∈ s.library.rows, ∀ ir, s.irs.find row.1.traceId = some ir → (row.2, ir) ∈ s.analysed

/-! ### The pickers -/

/-- `MainComponentRt60::choices`: every sweep, newest first, and whether its impulse response is
in memory. -/
def rt60Choices (s : FilingState I) : List (Bytes × Bytes × Bool) :=
  (s.library.entries.reverse.filter fun e => e.group = sweepGroup).map fun e =>
    (e.traceId, e.name, (s.irs.find e.traceId).isSome)

/-- The ALIGN picker: the sweeps whose impulse responses are in memory. -/
def alignChoices (s : FilingState I) : List (Bytes × Bytes) :=
  (s.library.entries.reverse.filter fun e =>
    e.group = sweepGroup && (s.irs.find e.traceId).isSome).map fun e => (e.traceId, e.name)

variable {s : FilingState I}

theorem Paired.of_entry (h : Paired s) {e : LibraryEntry}
    (he : e ∈ s.library.entries) {ir : I} (hir : s.irs.find e.traceId = some ir) :
    ∃ row ∈ s.library.rows, row.1 = e ∧ (row.2, ir) ∈ s.analysed := by
  obtain ⟨row, hrow, rfl⟩ := List.mem_map.mp he
  exact ⟨row, hrow, rfl, h row hrow ir hir⟩

/-- What the RT60 pane analyses for a choice was measured with that choice's trace. -/
theorem Paired.rt60Choices (h : Paired s) {choice : Bytes × Bytes × Bool}
    (hchoice : choice ∈ rt60Choices s) {ir : I} (hir : s.irs.find choice.1 = some ir) :
    ∃ row ∈ s.library.rows, row.1.traceId = choice.1 ∧ (row.2, ir) ∈ s.analysed := by
  obtain ⟨e, he, rfl⟩ := List.mem_map.mp hchoice
  obtain ⟨row, hrow, rfl, hmem⟩ := h.of_entry (List.mem_reverse.mp (List.mem_filter.mp he).1) hir
  exact ⟨row, hrow, rfl, hmem⟩

/-- The same for what ALIGN binds. -/
theorem Paired.alignChoices (h : Paired s) {choice : Bytes × Bytes}
    (hchoice : choice ∈ alignChoices s) {ir : I} (hir : s.irs.find choice.1 = some ir) :
    ∃ row ∈ s.library.rows, row.1.traceId = choice.1 ∧ (row.2, ir) ∈ s.analysed := by
  obtain ⟨e, he, rfl⟩ := List.mem_map.mp hchoice
  obtain ⟨row, hrow, rfl, hmem⟩ := h.of_entry (List.mem_reverse.mp (List.mem_filter.mp he).1) hir
  exact ⟨row, hrow, rfl, hmem⟩

/-! ### What the process filed -/

/-- What the process has filed: each under an id it gave, no id twice, and each impulse response in
the store with the trace it was analysed with. -/
structure FiledInv (s : FilingState I) : Prop where
  given : ∀ tr ∈ s.filed, ∃ n < s.sequence, tr.info.id = captureId n
  distinct : (s.filed.map fun tr => tr.info.id).Nodup
  analysed : ∀ p ∈ s.analysed, p.1 ∈ s.filed
  stored : ∀ id ir, s.irs.find id = some ir → ∃ tr, (tr, ir) ∈ s.analysed ∧ tr.info.id = id
  paired : Paired s

theorem filedInv_fresh (folders : Bytes → SessionFolder) :
    FiledInv (FilingState.fresh folders : FilingState I) where
  given _ h := absurd h List.not_mem_nil
  distinct := List.nodup_nil
  analysed _ h := absurd h List.not_mem_nil
  stored _ _ h := absurd h (by simp [FilingState.fresh])
  paired _ h := absurd h List.not_mem_nil

namespace FiledInv

variable {s : FilingState I}

theorem notMem_filed (h : FiledInv s) : captureId s.sequence ∉ s.filed.map fun tr => tr.info.id := by
  intro hmem
  obtain ⟨tr, htr, hid⟩ := List.mem_map.mp hmem
  obtain ⟨n, hn, hgiven⟩ := h.given tr htr
  rw [hgiven, captureId_inj] at hid
  exact absurd hn (hid ▸ Nat.lt_irrefl _)

theorem find_next (h : FiledInv s) : s.irs.find (captureId s.sequence) = none := by
  refine Option.eq_none_iff_forall_not_mem.mpr fun ir hir => ?_
  obtain ⟨tr, htr, hid⟩ := h.stored _ ir hir
  exact h.notMem_filed (List.mem_map.mpr ⟨tr, h.analysed _ htr, hid⟩)

variable {tr : Trace UInt32}

theorem of_find (h : FiledInv s) {id : Bytes} {ir : I} (hir : s.irs.find id = some ir)
    (htr : tr ∈ s.filed) (hid : tr.info.id = id) : (tr, ir) ∈ s.analysed := by
  obtain ⟨tr', hmem, hkey⟩ := h.stored id ir hir
  rwa [List.inj_on_of_nodup_map h.distinct htr (h.analysed _ hmem) (hid.trans hkey.symm)]

/-- A number that was only taken. -/
theorem skip (h : FiledInv s) : FiledInv { s with sequence := s.sequence + 1 } where
  given tr htr := by
    obtain ⟨n, hn, hid⟩ := h.given tr htr
    exact ⟨n, Nat.lt_succ_of_lt hn, hid⟩
  distinct := h.distinct
  analysed := h.analysed
  stored := h.stored
  paired := h.paired

section

variable (h : FiledInv s) (htr : tr.info.id = captureId s.sequence)

include h htr

theorem given_cons :
    (∀ t ∈ tr :: s.filed, ∃ n < s.sequence + 1, t.info.id = captureId n) ∧
      ((tr :: s.filed).map fun t => t.info.id).Nodup := by
  constructor
  · rintro t ht
    rcases List.mem_cons.mp ht with rfl | hold
    · exact ⟨s.sequence, Nat.lt_succ_self _, htr⟩
    · obtain ⟨n, hn, hid⟩ := h.given t hold
      exact ⟨n, Nat.lt_succ_of_lt hn, hid⟩
  · rw [List.map_cons, List.nodup_cons, htr]
    exact ⟨h.notMem_filed, h.distinct⟩

variable {library : TraceLibrary}

/-- A capture of STORE that the library takes: there is no impulse response under its id. -/
theorem store {e : LibraryEntry} (he : e.traceId = captureId s.sequence)
    (hrows : library.rows = s.library.rows ++ [(e, tr)]) :
    FiledInv { s with sequence := s.sequence + 1, library := library, filed := tr :: s.filed } where
  given := (h.given_cons htr).1
  distinct := (h.given_cons htr).2
  analysed p hp := List.mem_cons_of_mem _ (h.analysed p hp)
  stored := h.stored
  paired row hrow ir hir := by
    rw [hrows] at hrow
    rcases List.mem_append.mp hrow with hold | hnew
    · exact h.paired row hold ir hir
    · rw [List.mem_singleton.mp hnew] at hir
      exact absurd (hir.symm.trans ((congrArg s.irs.find he).trans h.find_next)) (by simp)

/-- A sweep that the library takes: its impulse response comes into the store under an id no other
trace of the library has. -/
theorem sweep {e : LibraryEntry} (he : e.traceId = captureId s.sequence)
    (hrows : library.rows = s.library.rows ++ [(e, tr)])
    (hid : captureId s.sequence ∉ s.library.ids) (ir : I) :
    FiledInv
      { s with
        sequence := s.sequence + 1
        library := library
        irs := s.irs.add (captureId s.sequence) ir
        filed := tr :: s.filed
        analysed := (tr, ir) :: s.analysed } := by
  have hnew : captureId s.sequence ∉ s.irs.entries.map (·.1) := by
    intro hmem
    obtain ⟨⟨key, ir'⟩, he, rfl⟩ := List.mem_map.mp hmem
    exact absurd (h.find_next.symm.trans (IrStore.find_eq_some_iff.mpr he)) (by simp)
  refine ⟨(h.given_cons htr).1, (h.given_cons htr).2, ?_, ?_, ?_⟩
  · rintro p hp
    rcases List.mem_cons.mp hp with rfl | hold
    · exact List.mem_cons_self
    · exact List.mem_cons_of_mem _ (h.analysed p hold)
  · rintro id ir' hfind
    rcases IrStore.find_add_of_new hnew hfind with hold | ⟨rfl, rfl⟩
    · obtain ⟨tr', hmem, hkey⟩ := h.stored id ir' hold
      exact ⟨tr', List.mem_cons_of_mem _ hmem, hkey⟩
    · exact ⟨tr, List.mem_cons_self, htr⟩
  · rintro row hrow ir' hfind
    dsimp only at hrow
    rw [hrows] at hrow
    rcases List.mem_append.mp hrow with hold | hlast
    · rcases IrStore.find_add_of_new hnew hfind with hfound | ⟨hkey, -⟩
      · exact List.mem_cons_of_mem _ (h.paired row hold ir' hfound)
      · exact absurd (hkey ▸ List.mem_map_of_mem hold) hid
    · rw [List.mem_singleton.mp hlast] at hfind ⊢
      rcases IrStore.find_add_of_new hnew hfind with hfound | ⟨-, rfl⟩
      · exact absurd (hfound.symm.trans ((congrArg s.irs.find he).trans h.find_next)) (by simp)
      · exact List.mem_cons_self

end

/-- A capture, whether there was anything to freeze and whether the library takes it. -/
theorem fileCapture (h : FiledInv s) (hwrap : s.sequence + 1 < 2 ^ 64) (tr : Option (Trace UInt32))
    (ir : Option I) (name group : Bytes) : FiledInv (s.fileCapture tr ir name group) := by
  cases tr with
  | none =>
    show FiledInv { s with sequence := nextSequence s.sequence }
    rw [nextSequence_of_lt hwrap]
    exact h.skip
  | some tr =>
    simp only [FilingState.fileCapture, nextSequence_of_lt hwrap]
    by_cases hid : captureId s.sequence ∈ s.library.ids
    · rw [TraceLibrary.add_of_mem (by exact hid), if_pos rfl]
      exact h.skip
    · have hnot : (tr.withId (captureId s.sequence)).info.id ∉ s.library.ids := hid
      obtain ⟨hadded, hrows⟩ := TraceLibrary.add_of_not_mem hnot name group
      rw [hadded, Trace.withId_id, if_neg (captureId_ne_nil _)]
      cases ir with
      | none => exact h.store rfl rfl hrows
      | some ir => exact h.sweep rfl rfl hrows hid ir

theorem openLibrary (h : FiledInv s) {library : TraceLibrary}
    (hrows : ∀ row ∈ library.rows, row ∈ s.library.rows ∨
      ((s.irs.find row.1.traceId).isSome → row.2 ∈ s.filed)) :
    FiledInv { s with library := library } where
  given := h.given
  distinct := h.distinct
  analysed := h.analysed
  stored := h.stored
  paired row hrow ir hir := by
    rcases hrows row hrow with hold | hfiled
    · exact h.paired row hold ir hir
    · exact h.of_find hir (hfiled (Option.isSome_of_eq_some hir)) (library.named row hrow).symm

end FiledInv

/-! ### What an opened folder brings -/

/-- No opened folder gives, under an id of the store, a trace this process did not file, and the
counter does not wrap. -/
def OpensOwn (nums : NumberText) (s : FilingState I) (a : FilingAct I) (_ : FilingState I) : Prop :=
  match a with
  | .open folder => ∀ item ∈ givenBy nums (s.folders folder),
      (s.irs.find item.trace.info.id).isSome → item.trace ∈ s.filed
  | .store .. => s.sequence + 1 < 2 ^ 64
  | .sweep .. => s.sequence + 1 < 2 ^ 64
  | _ => True

theorem editRows_traces (id : Bytes) (f : LibraryEntry → LibraryEntry) (rows : List LibraryRow) :
    (TraceLibrary.editRows id f rows).map (·.2) = rows.map (·.2) := by
  rw [TraceLibrary.editRows, List.map_map]
  refine List.map_congr_left fun row _ => ?_
  simp only [Function.comp_apply]
  split <;> rfl

theorem mem_traces_addAll {items : List LoadedTrace} {lib : TraceLibrary} {tr : Trace UInt32}
    (h : tr ∈ (items.foldl addLoaded lib).rows.map (·.2)) :
    tr ∈ lib.rows.map (·.2) ∨ ∃ item ∈ items, item.trace = tr := by
  induction items generalizing lib with
  | nil => exact .inl h
  | cons item items ih =>
    rcases ih h with hlib | ⟨i, hi, rfl⟩
    · have hadd : tr ∈ (lib.add item.trace item.name item.group).2.rows.map (·.2) := by
        rw [addLoaded] at hlib
        dsimp only at hlib
        split at hlib
        · exact hlib
        · rw [TraceLibrary.setShadeIndex, TraceLibrary.edit_rows, editRows_traces] at hlib
          split at hlib
          · exact hlib
          · rwa [TraceLibrary.setVisible, TraceLibrary.edit_rows, editRows_traces] at hlib
      by_cases hid : item.trace.info.id ∈ lib.ids
      · rw [TraceLibrary.add_of_mem hid] at hadd
        exact .inl hadd
      · rw [(TraceLibrary.add_of_not_mem hid _ _).2, List.map_append, List.mem_append] at hadd
        rcases hadd with hold | hnew
        · exact .inl hold
        · exact .inr ⟨item, List.mem_cons_self, (List.mem_singleton.mp hnew).symm⟩
    · exact .inr ⟨i, List.mem_cons_of_mem _ hi, rfl⟩

variable (nums : NumberText)

theorem rows_performOpen (folder : SessionFolder) (library : TraceLibrary) {row : LibraryRow}
    (h : row ∈ (performOpen nums folder library).2.rows) :
    row ∈ library.rows ∨ ∃ item ∈ givenBy nums folder, item.trace = row.2 := by
  rcases performOpen_library nums folder library with ⟨hsame, -⟩ | hopened
  · rw [hsame] at h
    exact .inl h
  · rw [hopened] at h
    have htrace := mem_traces_addAll (List.mem_map_of_mem (f := Prod.snd) h)
    rw [TraceLibrary.clear_rows] at htrace
    exact .inr (htrace.resolve_left List.not_mem_nil)

/-- What one permitted action keeps. -/
theorem FiledInv.step {s : FilingState I} {a : FilingAct I} (h : FiledInv s)
    (hok : OpensOwn nums s a (s.step nums a)) : FiledInv (s.step nums a) := by
  cases a with
  | start => exact filedInv_fresh _
  | store tr name group => exact h.fileCapture hok tr none name group
  | sweep tr ir name => exact h.fileCapture hok tr (some ir) name sweepGroup
  | save folder panes blob index =>
    rw [FilingState.step]
    dsimp only
    split
    · exact filedInv_fresh _
    · exact ⟨h.given, h.distinct, h.analysed, h.stored, h.paired⟩
  | «open» folder =>
    refine h.openLibrary fun row hrow => ?_
    rcases rows_performOpen nums _ _ hrow with hold | ⟨item, hitem, htrace⟩
    · exact .inl hold
    · refine .inr fun hir => htrace ▸ hok item hitem ?_
      rwa [htrace, ← (performOpen nums (s.folders folder) s.library).2.named row hrow]

/-- An Open that gives a trace the process did not file under an id of the store. -/
theorem not_paired_after_open {s : FilingState I} (h : FiledInv s) {folder : Bytes}
    (hdistinct : IndexDistinct nums (s.folders folder))
    (hforeign : ¬ OpensOwn nums s (.open folder) (s.step nums (.open folder))) :
    ¬ Paired (s.step nums (.open folder)) := by
  simp only [OpensOwn, not_forall] at hforeign
  obtain ⟨item, hitem, hsome, hfiled⟩ := hforeign
  obtain ⟨ir, hir⟩ := Option.isSome_iff_exists.mp hsome
  intro hpaired
  have hrows : (performOpen nums (s.folders folder) s.library).2.rows =
      (givenBy nums (s.folders folder)).map (·.row) := by
    have hok : (readIndex nums (s.folders folder)).1 = .ok := by
      by_contra hne
      rw [givenBy, readIndex_of_ne_ok nums hne] at hitem
      exact absurd hitem List.not_mem_nil
    exact (performOpen_rows nums s.library (Prod.ext hok rfl) hdistinct
      (.inl (List.ne_nil_of_mem hitem))).2
  have hmem : item.row ∈ (performOpen nums (s.folders folder) s.library).2.rows := by
    rw [hrows]
    exact List.mem_map_of_mem hitem
  exact hfiled (h.analysed _ (hpaired item.row hmem ir hir))

/-- **Headline.** In every run of process starts, captures, sweeps with their evictions, saves and
opens in which no opened folder gives, under an id the store has, a trace the process did not file
and no counter wraps, every state is paired. From a state such a run leads to, an Open of a folder
that names no id twice and does give such a trace leads to a state that is not. -/
theorem pairing_kept {s : FilingState I} (hs : (filingRuns nums).init s)
    (acts : List (FilingAct I)) (hacts : (filingRuns nums).AlongSteps (OpensOwn nums) s acts) :
    (filingRuns nums).AlongSteps (fun _ _ t => Paired t) s acts ∧
      ∀ (t : FilingState I) (folder : Bytes), (filingRuns nums).exec s acts = some t →
        IndexDistinct nums (t.folders folder) →
        ¬ OpensOwn nums t (.open folder) (t.step nums (.open folder)) →
          ¬ Paired (t.step nums (.open folder)) := by
  have hinit : FiledInv s := by
    rw [show s = .fresh s.folders from hs]
    exact filedInv_fresh _
  constructor
  · refine Machine.AlongSteps.of_invariant FiledInv (fun s a t h ht hok => ?_) hinit hacts
    cases ht
    exact ⟨h.step nums hok, (h.step nums hok).paired⟩
  · intro t folder hexec hdistinct hforeign
    refine not_paired_after_open nums (hacts.exec_invariant FiledInv ?_ hinit hexec) hdistinct hforeign
    intro s a t h ht hok
    cases ht
    exact h.step nums hok

/-! ### Two runs -/

section

variable {F : Type} [DecidableEq F]

instance : DecidableEq (Trace F) := fun a b =>
  decidable_of_iff (a.info = b.info ∧ a.magnitude = b.magnitude ∧ a.phase = b.phase ∧
    a.coherence = b.coherence) Trace.ext_iff.symm

variable [DecidableEq I]

instance (s : FilingState I) : Decidable (Paired s) :=
  inferInstanceAs (Decidable (∀ row ∈ s.library.rows,
    ∀ ir ∈ s.irs.find row.1.traceId, (row.2, ir) ∈ s.analysed))

instance (s t : FilingState I) (a : FilingAct I) : Decidable (OpensOwn nums s a t) :=
  match a with
  | .open folder => inferInstanceAs (Decidable (∀ item ∈ givenBy nums (s.folders folder),
      (s.irs.find item.trace.info.id).isSome → item.trace ∈ s.filed))
  | .store .. => inferInstanceAs (Decidable (s.sequence + 1 < 2 ^ 64))
  | .sweep .. => inferInstanceAs (Decidable (s.sequence + 1 < 2 ^ 64))
  | .start => isTrue trivial
  | .save .. => isTrue trivial

end

/-- A process with no folder anywhere, whose impulse responses are told apart by numbers. -/
def firstSweeper : FilingState ℕ := .fresh fun _ => newFolder

/-- A sweep, and a save in which nothing goes wrong. -/
def sweepAndSave (tr : Trace UInt32) (ir : ℕ) : List (FilingAct ℕ) :=
  [.sweep (some tr) ir [], .save [] [] (fun _ => {}) {}]

/-- A process opens what it saved: the trace and the impulse response are together again. -/
theorem pairing_kept_reopened :
    (filingRuns decimalNumbers).AlongSteps (fun _ _ t => Paired t) firstSweeper
      (sweepAndSave firstCapture 1 ++ [.open []]) := by
  have hinit : (filingRuns decimalNumbers).init firstSweeper := rfl
  exact (pairing_kept decimalNumbers hinit _ (by decide +kernel)).1

/-- The next process sweeps too, under the same id, and opens that folder: the first process's
trace is now found with the second one's impulse response. -/
theorem pairing_broken :
    ¬ (filingRuns decimalNumbers).AlongSteps (fun _ _ t => Paired t) firstSweeper
      (sweepAndSave firstCapture 1 ++ [.start, .sweep (some otherFirstCapture) 2 [], .open []]) := by
  decide +kernel

end RtaTool
