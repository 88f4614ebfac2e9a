import RtaTool.Lib.Machine
import RtaTool.Trace.SessionSave

/-!
# Captures across processes

`CaptureConverter.cpp`, `MainComponentStore.cpp`, `MainComponentSweep.cpp`: where the ids of
captures come from and where they go. An id is the word `capture-` and the next value of a counter
that is static to the process, so it starts over with each one, while a session folder brings in
the ids of whichever processes saved it.

One machine has the process starts, the captures, the saves and the opens as its actions. The
folders outlive the processes. A capture takes its id first and may then turn out to have nothing
to freeze. A process may end at any time, also in the middle of a save.

## Main definitions

* `captureId`, `Trace.withId`
* `IrStore`, `IrStore.add`, `IrStore.find`
* `FilingState`, `FilingAct`, `filingRuns`
* `IdIsNew` -- a capture's id is not in the library, and `add` takes it
* `OpensOlder` -- no opened folder brings an id the process has still to give

## Main results

* `mem_ids_performOpen` -- the ids in the library after an Open
* `filing_ids_fresh` -- **Headline.** In a run whose opens bring no id the process has still
  to give, every capture's id is new; an Open that brings one has a continuation that refuses a
  capture
-/

namespace RtaTool

open SessionStore

/-! ### Ids -/

/-- `nextCaptureId()`, for the value the counter had. -/
def captureId (n : ℕ) : Bytes := bytes "capture-" ++ decimal n

theorem captureId_inj {m n : ℕ} : captureId m = captureId n ↔ m = n := by
  rw [captureId, captureId, List.append_cancel_left_eq]
  constructor
  · intro h
    rw [← decimalValue_decimal m, h, decimalValue_decimal]
  · exact congrArg decimal

theorem captureId_ne_nil (n : ℕ) : captureId n ≠ [] := by
  intro h
  exact decimal_ne_nil n (List.append_eq_nil_iff.mp h).2

/-- A trace under the id it was given. -/
def Trace.withId {F : Type} (tr : Trace F) (id : Bytes) : Trace F :=
  { tr with info := { tr.info with id := id }, magnitude_length := tr.magnitude_length }

@[simp] theorem Trace.withId_id {F : Type} (tr : Trace F) (id : Bytes) :
    (tr.withId id).info.id = id := rfl

/-! ### The impulse responses in memory -/

/-- `IrStore::kCapacity`. -/
def kIrCapacity : ℕ := 8

/-- `IrStore`: impulse responses, each under the id of a trace, oldest first. -/
structure IrStore (I : Type) where
  entries : List (Bytes × I)
  length_le : entries.length ≤ kIrCapacity
  nodup : (entries.map (·.1)).Nodup

namespace IrStore

variable {I : Type}

/-- A store when it is made. -/
def empty : IrStore I := ⟨[], Nat.zero_le _, List.nodup_nil⟩

/-- `find(traceId)`. -/
def find (irs : IrStore I) (id : Bytes) : Option I :=
  (irs.entries.find? fun e => e.1 = id).map (·.2)

/-- The first entry of an id replaced in place. -/
def replaceFirst (id : Bytes) (ir : I) (entries : List (Bytes × I)) : List (Bytes × I) :=
  entries.replaceF fun e => if e.1 = id then some (id, ir) else none

theorem replaceFirst_keys (id : Bytes) (ir : I) (entries : List (Bytes × I)) :
    (replaceFirst id ir entries).map (·.1) = entries.map (·.1) := by
  induction entries with
  | nil => rfl
  | cons e entries ih =>
    rw [replaceFirst] at ih ⊢
    by_cases he : e.1 = id
    · simp [List.replaceF, he]
    · simp [List.replaceF, he, ih]

variable {entries : List (Bytes × I)}

theorem length_tail_le (h : entries.length ≤ kIrCapacity)
    (e : Bytes × I) : (entries ++ [e]).tail.length ≤ kIrCapacity := by
  rw [List.length_tail, List.length_append, List.length_singleton, Nat.add_sub_cancel]
  exact h

theorem nodup_append_entry (h : (entries.map (·.1)).Nodup)
    {e : Bytes × I} (he : e.1 ∉ entries.map (·.1)) : ((entries ++ [e]).map (·.1)).Nodup := by
  rw [List.map_append]
  refine List.Nodup.append h (List.nodup_singleton _) ?_
  intro id hold hnew
  rw [List.mem_singleton.mp hnew] at hold
  exact he hold

theorem nodup_tail (h : (entries.map (·.1)).Nodup) :
    (entries.tail.map (·.1)).Nodup := by
  rw [List.map_tail]
  exact h.sublist (List.tail_sublist _)

/-- `add(traceId, ir)`: an id already present is replaced in place, and past the capacity the
oldest entry goes. -/
def add (irs : IrStore I) (id : Bytes) (ir : I) : IrStore I :=
  if hid : id ∈ irs.entries.map (·.1) then
    { entries := replaceFirst id ir irs.entries
      length_le := List.length_replaceF.trans_le irs.length_le
      nodup := (replaceFirst_keys id ir irs.entries).symm ▸ irs.nodup }
  else if h : kIrCapacity < (irs.entries ++ [(id, ir)]).length then
    { entries := (irs.entries ++ [(id, ir)]).tail
      length_le := length_tail_le irs.length_le _
      nodup := nodup_tail (nodup_append_entry irs.nodup hid) }
  else
    { entries := irs.entries ++ [(id, ir)]
      length_le := Nat.le_of_not_lt h
      nodup := nodup_append_entry irs.nodup hid }

@[simp] theorem find_empty (id : Bytes) : (empty : IrStore I).find id = none := rfl

theorem find_eq_some_iff {irs : IrStore I} {id : Bytes} {ir : I} :
    irs.find id = some ir ↔ (id, ir) ∈ irs.entries := by
  rw [find, Option.map_eq_some_iff]
  constructor
  · rintro ⟨⟨key, ir'⟩, hfound, rfl⟩
    have hkey := List.find?_some hfound
    rw [← of_decide_eq_true hkey]
    exact List.mem_of_find?_eq_some hfound
  · intro hmem
    exact ⟨(id, ir), find?_of_nodup irs.nodup hmem, rfl⟩

/-- Adding under a new id brings in that entry and nothing else; the oldest may go. -/
theorem find_add_of_new {irs : IrStore I} {id : Bytes} (hnew : id ∉ irs.entries.map (·.1)) {ir : I}
    {id' : Bytes} {ir' : I} (h : (irs.add id ir).find id' = some ir') :
    irs.find id' = some ir' ∨ id' = id ∧ ir' = ir := by
  rw [find_eq_some_iff, add, dif_neg hnew] at h
  have happend : (id', ir') ∈ irs.entries ++ [(id, ir)] := by
    split at h
    · exact List.mem_of_mem_tail h
    · exact h
  rw [find_eq_some_iff]
  rcases List.mem_append.mp happend with hold | hlast
  · exact .inl hold
  · exact .inr (Prod.mk.inj (List.mem_singleton.mp hlast))

end IrStore

/-! ### The machine -/

/-- A process and the session folders on disk. The last two fields are the history of the process:
the captures it has filed, and for each sweep among them the trace and the impulse response that
came out of one analysis. -/
structure FilingState (I : Type) where
  sequence : ℕ
  library : TraceLibrary
  irs : IrStore I
  folders : Bytes → SessionFolder
  filed : List (Trace UInt32)
  analysed : List (Trace UInt32 × I)

/-- A process that has just started. -/
def FilingState.fresh {I : Type} (folders : Bytes → SessionFolder) : FilingState I where
  sequence := 0
  library := TraceLibrary.empty
  irs := IrStore.empty
  folders := folders
  filed := []
  analysed := []

/-- What happens: a process ends and another starts; STORE, with what was frozen if anything was;
a sweep that was analysed, with its trace and its impulse response; Save and Open. -/
inductive FilingAct (I : Type)
  | start
  | store (tr : Option (Trace UInt32)) (name group : Bytes)
  | sweep (tr : Option (Trace UInt32)) (ir : I) (name : Bytes)
  | save (folder : Bytes) (panes : List PaneSpec) (blob : Bytes → BlobSteps) (index : IndexSteps)
  | open (folder : Bytes)

/-- Whether an action takes an id. -/
def FilingAct.takesId {I : Type} : FilingAct I → Bool
  | .store .. => true
  | .sweep .. => true
  | _ => false

/-- `fetch_add` on a 64-bit counter. -/
def nextSequence (n : ℕ) : ℕ := (n + 1) % 2 ^ 64

variable {I : Type}

/-- The two callers of `nextCaptureId`: the id is taken, the trace built and added, and the impulse
response of a sweep stored if the library took its trace. -/
def FilingState.fileCapture (s : FilingState I) (tr : Option (Trace UInt32)) (ir : Option I)
    (name group : Bytes) : FilingState I :=
  let id := captureId s.sequence
  let s := { s with sequence := nextSequence s.sequence }
  match tr with
  | none => s
  | some tr =>
    let tr := tr.withId id
    let (added, library) := s.library.add tr name group
    if added = [] then s
    else
      { s with
        library := library
        irs := match ir with
          | none => s.irs
          | some ir => s.irs.add added ir
        filed := tr :: s.filed
        analysed := match ir with
          | none => s.analysed
          | some ir => (tr, ir) :: s.analysed }

/-- The group of a sweep. -/
def sweepGroup : Bytes := bytes "SWEEP"

variable (nums : NumberText)

/-- One action. A process that stops in a save is followed by another. -/
def FilingState.step (s : FilingState I) : FilingAct I → FilingState I
  | .start => .fresh s.folders
  | .store tr name group => s.fileCapture tr none name group
  | .sweep tr ir name => s.fileCapture tr (some ir) name sweepGroup
  | .save folder panes blob index =>
    let (status, written) := performSave nums ⟨s.library, panes, blob, index⟩ (s.folders folder)
    let folders := Function.update s.folders folder written
    if status = none then .fresh folders else { s with folders := folders }
  | .open folder => { s with library := (performOpen nums (s.folders folder) s.library).2 }

/-- The runs, over any folders there were before. -/
def filingRuns : Machine (FilingState I) (FilingAct I) where
  init s := s = .fresh s.folders
  step s a := some (s.step nums a)

variable {s : FilingState I}

variable {P : FilingState I → FilingAct I → FilingState I → Prop} {acts : List (FilingAct I)}
  {folder : SessionFolder}

theorem filingRuns_cons {a : FilingAct I} :
    (filingRuns nums).AlongSteps P s (a :: acts) ↔
      P s a (s.step nums a) ∧ (filingRuns nums).AlongSteps P (s.step nums a) acts := Iff.rfl

/-! ### What an Open brings -/

/-- The captures a folder gives. -/
def givenBy (folder : SessionFolder) : List LoadedTrace :=
  loadTraces folder (readIndex nums folder).2

/-- The library after an Open: as it was, or filled with what the folder gives. -/
theorem performOpen_library (folder : SessionFolder) (library : TraceLibrary) :
    (performOpen nums folder library).2 = library ∧
        ((readIndex nums folder).1 ≠ .ok ∨ givenBy nums folder = []) ∨
      (performOpen nums folder library).2 =
        (givenBy nums folder).foldl addLoaded library.clear := by
  rw [performOpen, givenBy]
  dsimp only
  split
  · exact .inl ⟨rfl, .inl ‹_›⟩
  · split
    · rename_i hnone
      exact .inl ⟨rfl, .inr (List.isEmpty_iff.mp hnone.1)⟩
    · exact .inr rfl

theorem performOpen_of_given (h : givenBy nums folder ≠ []) (library : TraceLibrary) :
    (performOpen nums folder library).2 = (givenBy nums folder).foldl addLoaded library.clear := by
  rcases performOpen_library nums folder library with ⟨-, hne | hnone⟩ | hopened
  · refine absurd ?_ h
    rw [givenBy, readIndex_of_ne_ok nums hne]
    rfl
  · exact absurd hnone h
  · exact hopened

/-- The ids in the library after an Open are those before, or those the folder gives. -/
theorem mem_ids_performOpen {library : TraceLibrary} {id : Bytes}
    (h : id ∈ (performOpen nums folder library).2.ids) :
    id ∈ library.ids ∨ ∃ item ∈ givenBy nums folder, item.trace.info.id = id := by
  rcases performOpen_library nums folder library with ⟨hsame, -⟩ | hopened
  · rw [hsame] at h
    exact .inl h
  · rw [hopened, mem_ids_addAll, TraceLibrary.clear_ids] at h
    exact .inr (List.mem_map.mp (h.resolve_left List.not_mem_nil))

/-! ### What a capture does -/

theorem nextSequence_of_lt {n : ℕ} (h : n + 1 < 2 ^ 64) : nextSequence n = n + 1 :=
  Nat.mod_eq_of_lt h

@[simp] theorem fileCapture_sequence (s : FilingState I) (tr : Option (Trace UInt32))
    (ir : Option I) (name group : Bytes) :
    (s.fileCapture tr ir name group).sequence = nextSequence s.sequence := by
  cases tr with
  | none => rfl
  | some tr =>
    simp only [FilingState.fileCapture]
    split <;> rfl

theorem mem_ids_fileCapture {tr : Option (Trace UInt32)} {ir : Option I}
    {name group id : Bytes} (h : id ∈ (s.fileCapture tr ir name group).library.ids) :
    id ∈ s.library.ids ∨ id = captureId s.sequence := by
  cases tr with
  | none => exact .inl h
  | some tr =>
    simp only [FilingState.fileCapture] at h
    split at h
    · exact .inl h
    · exact (TraceLibrary.mem_ids_add name group).mp h

/-! ### Ids that are new -/

/-- The id a capture is given is that of no trace in the library, so `add` does not refuse it. -/
def IdIsNew (s : FilingState I) (a : FilingAct I) (_ : FilingState I) : Prop :=
  a.takesId = true → captureId s.sequence ∉ s.library.ids ∧
    ∀ (tr : Trace UInt32) (name group : Bytes),
      (s.library.add (tr.withId (captureId s.sequence)) name group).1 = captureId s.sequence

/-- No folder that is opened gives a capture under an id the process has still to give, and the
counter does not wrap. -/
def OpensOlder (s : FilingState I) (a : FilingAct I) (_ : FilingState I) : Prop :=
  match a with
  | .open folder => ∀ item ∈ givenBy nums (s.folders folder), ∀ n, s.sequence ≤ n → n < 2 ^ 64 →
      item.trace.info.id ≠ captureId n
  | .store .. => s.sequence + 1 < 2 ^ 64
  | .sweep .. => s.sequence + 1 < 2 ^ 64
  | _ => True

/-- No id the process has still to give is in the library. -/
def UngivenFresh (s : FilingState I) : Prop :=
  s.sequence < 2 ^ 64 ∧ ∀ n, s.sequence ≤ n → n < 2 ^ 64 → captureId n ∉ s.library.ids

theorem ungivenFresh_fresh (folders : Bytes → SessionFolder) :
    UngivenFresh (FilingState.fresh folders : FilingState I) :=
  ⟨Nat.two_pow_pos 64, fun _ _ _ => List.not_mem_nil⟩

theorem UngivenFresh.idIsNew (h : UngivenFresh s) (a : FilingAct I)
    (t : FilingState I) : IdIsNew s a t := by
  intro _
  have hnew := h.2 s.sequence (Nat.le_refl _) h.1
  exact ⟨hnew, fun tr name group => (TraceLibrary.add_of_not_mem hnew name group).1⟩

theorem UngivenFresh.fileCapture (h : UngivenFresh s)
    (hwrap : s.sequence + 1 < 2 ^ 64) (tr : Option (Trace UInt32)) (ir : Option I)
    (name group : Bytes) : UngivenFresh (s.fileCapture tr ir name group) := by
  rw [UngivenFresh, fileCapture_sequence, nextSequence_of_lt hwrap]
  refine ⟨hwrap, fun n hle hlt hmem => ?_⟩
  rcases mem_ids_fileCapture hmem with hold | heq
  · exact h.2 n (Nat.le_of_succ_le hle) hlt hold
  · rw [captureId_inj] at heq
    omega

/-- What one permitted action keeps. -/
theorem UngivenFresh.step {a : FilingAct I} (h : UngivenFresh s)
    (hok : OpensOlder nums s a (s.step nums a)) : UngivenFresh (s.step nums a) := by
  cases a with
  | start => exact ungivenFresh_fresh _
  | store tr name group => exact h.fileCapture hok tr none name group
  | sweep tr ir name => exact h.fileCapture hok tr (some ir) name sweepGroup
  | save folder panes blob index =>
    rw [FilingState.step]
    dsimp only
    split
    · exact ungivenFresh_fresh _
    · exact h
  | «open» folder =>
    refine ⟨h.1, fun n hle hlt hmem => ?_⟩
    rcases mem_ids_performOpen nums hmem with hold | ⟨item, hitem, hid⟩
    · exact h.2 n hle hlt hold
    · exact hok item hitem n hle hlt hid

/-! ### An Open that brings a later id -/

/-- Captures with nothing to freeze, one after the other: each takes an id. -/
theorem alongSteps_replicate_store {k : ℕ} (hk : s.sequence + k < 2 ^ 64)
    (h : (filingRuns nums).AlongSteps P s
      (List.replicate k (.store none [] []) ++ acts)) :
    (filingRuns nums).AlongSteps P { s with sequence := s.sequence + k } acts := by
  induction k generalizing s with
  | zero => exact h
  | succ k ih =>
    have htail := h.tail (t := { s with sequence := nextSequence s.sequence }) rfl
    rw [nextSequence_of_lt (by omega)] at htail
    have hrest := ih (s := { s with sequence := s.sequence + 1 }) (by dsimp only; omega) htail
    rwa [show s.sequence + 1 + k = s.sequence + (k + 1) by omega] at hrest

/-- An Open that brings an id the process has still to give: when the counter gets there, the
capture is refused. -/
theorem refused_after_open {folder : Bytes} {item : LoadedTrace}
    (hitem : item ∈ givenBy nums (s.folders folder)) {n : ℕ} (hle : s.sequence ≤ n)
    (hlt : n < 2 ^ 64) (hid : item.trace.info.id = captureId n) (tr : Trace UInt32)
    (name group : Bytes) :
    ¬ (filingRuns nums).AlongSteps IdIsNew s
      (.open folder :: (List.replicate (n - s.sequence) (.store none [] []) ++
        [.store (some tr) name group])) := by
  intro h
  have hopened := h.tail (t := s.step nums (.open folder)) rfl
  have hlast := alongSteps_replicate_store nums (s := s.step nums (.open folder))
    (show s.sequence + (n - s.sequence) < 2 ^ 64 by omega) hopened
  have hnew := (hlast.head rfl rfl).1
  refine hnew ?_
  show captureId (s.sequence + (n - s.sequence)) ∈
    (performOpen nums (s.folders folder) s.library).2.ids
  rw [performOpen_of_given nums (List.ne_nil_of_mem hitem), mem_ids_addAll,
    Nat.add_sub_cancel' hle, ← hid]
  exact .inr (List.mem_map_of_mem hitem)

/-- **Headline.** In every run of process starts, captures, saves and opens in which no opened
folder gives a capture under an id the process has still to give and no counter wraps, the id of
every capture is new to the library. Where an Open does bring such an id, the run that goes on with
captures until the counter is there refuses one. -/
theorem filing_ids_fresh {s : FilingState I} (hs : (filingRuns nums).init s)
    (acts : List (FilingAct I)) :
    ((filingRuns nums).AlongSteps (OpensOlder nums) s acts →
      (filingRuns nums).AlongSteps IdIsNew s acts) ∧
    ∀ (t : FilingState I) (folder : Bytes),
      ¬ OpensOlder nums t (.open folder) (t.step nums (.open folder)) →
        ∀ (tr : Trace UInt32) (name group : Bytes), ∃ k, ¬ (filingRuns nums).AlongSteps IdIsNew t
          (.open folder :: (List.replicate k (.store none [] []) ++
            [.store (some tr) name group])) := by
  constructor
  · refine Machine.AlongSteps.of_invariant UngivenFresh (fun s a t h ht hok => ?_) ?_
    · cases ht
      exact ⟨h.step nums hok, h.idIsNew a _⟩
    · rw [show s = .fresh s.folders from hs]
      exact ungivenFresh_fresh _
  · intro t folder hunsafe tr name group
    simp only [OpensOlder, not_forall, not_not] at hunsafe
    obtain ⟨item, hitem, n, hle, hlt, hid⟩ := hunsafe
    exact ⟨n - t.sequence, refused_after_open nums hitem hle hlt hid tr name group⟩

/-! ### Two runs -/

/-- A process with no folder anywhere. -/
def firstProcess : FilingState Unit := .fresh fun _ => newFolder

/-- Its first capture. -/
def firstStore : FilingAct Unit := .store (some firstCapture) [] []

/-- A save in which nothing goes wrong. -/
def wholeSave : FilingAct Unit := .save [] [] (fun _ => {}) {}

/-- The process once it has captured and saved. -/
def savedProcess : FilingState Unit :=
  (firstProcess.step decimalNumbers firstStore).step decimalNumbers wholeSave

theorem givenBy_savedProcess :
    savedProcess.sequence = 1 ∧
      (givenBy decimalNumbers (savedProcess.folders [])).map (fun item => item.trace.info.id) =
        [captureId 0] := by
  decide +kernel

theorem opensOlder_of_given {s : FilingState Unit} (hs : s.sequence = 1)
    (hgiven : (givenBy decimalNumbers (s.folders [])).map (fun item => item.trace.info.id) =
      [captureId 0]) :
    (filingRuns decimalNumbers).AlongSteps (OpensOlder decimalNumbers) s
      [.open [], firstStore] := by
  refine ⟨fun item hitem n hle _ hid => ?_, ?_, trivial⟩
  · have hmem : item.trace.info.id ∈ [captureId 0] := hgiven ▸ List.mem_map_of_mem hitem
    rw [hid, List.mem_singleton, captureId_inj] at hmem
    omega
  · show s.sequence + 1 < 2 ^ 64
    rw [hs]
    decide

/-- A process opens the folder it saved and goes on. -/
theorem filing_ids_fresh_secondCapture :
    (filingRuns decimalNumbers).AlongSteps IdIsNew firstProcess
      [firstStore, wholeSave, .open [], firstStore] := by
  have hinit : (filingRuns decimalNumbers).init firstProcess := rfl
  refine (filing_ids_fresh decimalNumbers hinit _).1 ?_
  rw [filingRuns_cons, filingRuns_cons]
  exact ⟨show 0 + 1 < 2 ^ 64 by decide, trivial,
    opensOlder_of_given givenBy_savedProcess.1 givenBy_savedProcess.2⟩

theorem refused_of_given {s : FilingState Unit}
    (hgiven : (givenBy decimalNumbers (s.folders [])).map (fun item => item.trace.info.id) =
      [captureId 0]) :
    ¬ (filingRuns decimalNumbers).AlongSteps IdIsNew s [.start, .open [], firstStore] := by
  intro h
  have hmem : captureId 0 ∈ (givenBy decimalNumbers (s.folders [])).map
      fun item => item.trace.info.id := by
    rw [hgiven]
    exact List.mem_cons_self
  obtain ⟨item, hitem, hid⟩ := List.mem_map.mp hmem
  exact refused_after_open decimalNumbers (s := .fresh s.folders) hitem (Nat.le_refl 0)
    (Nat.two_pow_pos 64) hid firstCapture [] [] h.2

/-- The next process opens the folder before it has captured anything: its first capture has the id
of the one in the library and is thrown away. -/
theorem filing_ids_collide :
    ¬ (filingRuns decimalNumbers).AlongSteps IdIsNew firstProcess
      [firstStore, wholeSave, .start, .open [], firstStore] := by
  rw [filingRuns_cons, filingRuns_cons]
  rintro ⟨-, -, h⟩
  exact refused_of_given givenBy_savedProcess.2 h

end RtaTool
