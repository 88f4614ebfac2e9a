import RtaTool.Trace.TraceLibrary

/-!
# The two vectors of the trace library

`TraceLibrary.cpp` as it stores it: `entries_` and `traces_` are vectors of their own, and the
revision is a counter beside them. Every operation has to move all three. What they hold together
is a library of rows, `TraceLibrary`, whose invariants are fields: each operation on the vectors is
that of the library, so that the vectors of any history are those of some library.

A shade index is an integer here, and a library has fewer captures than an `int` counts.

## Main definitions

* `LibraryStore`, `indexOf`, `findEntry`, `nextFreeShadeIndex` and the seven operations
* `LibraryOp`, `LibraryStore.step`, `TraceLibrary.step`
* `TraceLibrary.store` -- the vectors of a library

## Main results

* `nextFreeShadeIndex_isLeast` -- the search through the flags
* `store_step` -- an operation on the vectors of a library
* `step_eq_or` -- the revision of a step
* `libraryStore_history` -- **Headline.** After any history, and for whatever comes next
-/

namespace RtaTool

/-- The members of `TraceLibrary` that its operations move. -/
structure LibraryStore where
  entries : List LibraryEntry
  traces : List (Trace UInt32)
  revision : UInt64

/-- The calls that change a library. -/
inductive LibraryOp
  | add (newTrace : Trace UInt32) (name group : Bytes)
  | rename (id name : Bytes)
  | setVisible (id : Bytes) (visible : Bool)
  | setGroup (id group : Bytes)
  | setShadeIndex (id : Bytes) (shadeIndex : ℤ)
  | soloOnly (id : Bytes)
  | clear

/-! ### The vectors -/

namespace LibraryStore

/-- A library when it is made. -/
def empty : LibraryStore := ⟨[], [], 0⟩

/-- `indexOf(id)`: the first of that id, or `entries_.size()`. -/
def indexOf (s : LibraryStore) (id : Bytes) : ℕ := s.entries.findIdx fun e => e.traceId = id

/-- `findEntry(id)`, and `entry(id)`. -/
def findEntry (s : LibraryStore) (id : Bytes) : Option LibraryEntry := s.entries[s.indexOf id]?

/-- `trace(id)`: the index is that of the entry. -/
def trace (s : LibraryStore) (id : Bytes) : Option (Trace UInt32) :=
  if s.indexOf id < s.entries.length then s.traces[s.indexOf id]? else none

/-- One turn of the first loop of `nextFreeShadeIndex`. -/
def flagShade (group : Bytes) (used : List Bool) (e : LibraryEntry) : List Bool :=
  if e.group ≠ group ∨ e.shadeIndex < 0 then used
  else
    let idx := e.shadeIndex.toNat
    (used ++ List.replicate (idx + 1 - used.length) false).set idx true

/-- `nextFreeShadeIndex(group)`: the first flag that is not set, or one past the last. -/
def nextFreeShadeIndex (s : LibraryStore) (group : Bytes) : ℤ :=
  (s.entries.foldl (flagShade group) []).findIdx fun used => !used

/-- `add(newTrace, name, group)`. -/
def add (s : LibraryStore) (newTrace : Trace UInt32) (name group : Bytes) : Bytes × LibraryStore :=
  let id := newTrace.info.id
  if (s.findEntry id).isSome then ([], s)  -- duplicate id: refused, nothing moves
  else
    let shade := s.nextFreeShadeIndex group
    (id,
      { entries := s.entries ++ [⟨id, name, group, shade, true⟩]
        traces := s.traces ++ [newTrace]
        revision := s.revision + 1 })

/-- A setter, from when a value is already there and how it is written. -/
def edit (s : LibraryStore) (id : Bytes) (same : LibraryEntry → Bool)
    (write : LibraryEntry → LibraryEntry) : Bool × LibraryStore :=
  match s.findEntry id with
  | none => (false, s)
  | some e =>
    if same e then (true, s)  -- no-op: revision must not move
    else
      (true,
        { s with
          entries := s.entries.set (s.indexOf id) (write e)
          revision := s.revision + 1 })

/-- `rename(id, name)`. -/
def rename (s : LibraryStore) (id name : Bytes) : Bool × LibraryStore :=
  s.edit id (fun e => e.name = name) fun e => { e with name := name }

/-- `setVisible(id, visible)`. -/
def setVisible (s : LibraryStore) (id : Bytes) (visible : Bool) : Bool × LibraryStore :=
  s.edit id (fun e => e.visible = visible) fun e => { e with visible := visible }

/-- `setGroup(id, group)`. -/
def setGroup (s : LibraryStore) (id group : Bytes) : Bool × LibraryStore :=
  s.edit id (fun e => e.group = group) fun e => { e with group := group }

/-- `setShadeIndex(id, shadeIndex)`. -/
def setShadeIndex (s : LibraryStore) (id : Bytes) (shadeIndex : ℤ) : Bool × LibraryStore :=
  s.edit id (fun e => e.shadeIndex = shadeIndex) fun e => { e with shadeIndex := shadeIndex }

/-- One turn of the loop of `soloOnly`. -/
def soloEntry (id : Bytes) (acc : List LibraryEntry × Bool) (e : LibraryEntry) :
    List LibraryEntry × Bool :=
  let shouldBeVisible := decide (e.traceId = id)
  if e.visible ≠ shouldBeVisible then (acc.1 ++ [{ e with visible := shouldBeVisible }], true)
  else (acc.1 ++ [e], acc.2)

/-- `soloOnly(id)`. -/
def soloOnly (s : LibraryStore) (id : Bytes) : LibraryStore :=
  if (s.findEntry id).isNone then s
  else
    -- one sweep, one possible bump
    let swept := s.entries.foldl (soloEntry id) ([], false)
    { s with
      entries := swept.1
      revision := if swept.2 then s.revision + 1 else s.revision }

/-- `clear()`. -/
def clear (s : LibraryStore) : LibraryStore :=
  if s.entries = [] then s else ⟨[], [], s.revision + 1⟩

/-- What a call leaves. -/
def step (s : LibraryStore) : LibraryOp → LibraryStore
  | .add newTrace name group => (s.add newTrace name group).2
  | .rename id name => (s.rename id name).2
  | .setVisible id visible => (s.setVisible id visible).2
  | .setGroup id group => (s.setGroup id group).2
  | .setShadeIndex id shadeIndex => (s.setShadeIndex id shadeIndex).2
  | .soloOnly id => s.soloOnly id
  | .clear => s.clear

end LibraryStore

/-- What a call leaves, of a library of rows. -/
def TraceLibrary.step (lib : TraceLibrary) : LibraryOp → TraceLibrary
  | .add newTrace name group => (lib.add newTrace name group).2
  | .rename id name => (lib.rename id name).2
  | .setVisible id visible => (lib.setVisible id visible).2
  | .setGroup id group => (lib.setGroup id group).2
  | .setShadeIndex id shadeIndex => (lib.setShadeIndex id shadeIndex).2
  | .soloOnly id => lib.soloOnly id
  | .clear => lib.clear

/-! ### The shade of a new capture -/

namespace LibraryStore

theorem getElem?_flagShade (group : Bytes) (used : List Bool) (e : LibraryEntry) (n : ℕ) :
    (flagShade group used e)[n]? = some true ↔
      used[n]? = some true ∨ e.group = group ∧ e.shadeIndex = n := by
  rw [flagShade]
  split_ifs with hskip
  · constructor
    · exact Or.inl
    · rintro (hset | ⟨hgroup, hshade⟩)
      · exact hset
      · rcases hskip with hother | hneg
        · exact absurd hgroup hother
        · omega
  · rw [not_or, not_not, not_lt] at hskip
    obtain ⟨hgroup, hnonneg⟩ := hskip
    have hshade : e.shadeIndex = n ↔ e.shadeIndex.toNat = n := by omega
    rw [hshade, List.getElem?_set]
    split_ifs with heq hlt
    · simp [hgroup, heq]
    · rw [List.length_append, List.length_replicate] at hlt
      omega
    · simp only [heq, and_false, or_false, List.getElem?_append, List.getElem?_replicate]
      split_ifs with hlt hnew
      · rfl
      · simp only [Option.some.injEq, Bool.false_eq_true, false_iff]
        rw [List.getElem?_eq_none (Nat.le_of_not_lt hlt)]
        exact nofun
      · simp only [reduceCtorEq, false_iff]
        rw [List.getElem?_eq_none (Nat.le_of_not_lt hlt)]
        exact nofun

theorem getElem?_flags (group : Bytes) (entries : List LibraryEntry) (used : List Bool) (n : ℕ) :
    (entries.foldl (flagShade group) used)[n]? = some true ↔
      used[n]? = some true ∨ ∃ e ∈ entries, e.group = group ∧ e.shadeIndex = n := by
  induction entries generalizing used with
  | nil => simp
  | cons e entries ih =>
    rw [List.foldl_cons, ih, getElem?_flagShade, or_assoc, List.exists_mem_cons_iff]

/-- The least shade from zero on that no entry of the group has. -/
theorem nextFreeShadeIndex_isLeast (s : LibraryStore) (group : Bytes) :
    IsLeast {shade : ℤ | 0 ≤ shade ∧ ∀ e ∈ s.entries, e.group = group → e.shadeIndex ≠ shade}
      (s.nextFreeShadeIndex group) := by
  have hflags := getElem?_flags group s.entries []
  rw [nextFreeShadeIndex]
  generalize s.entries.foldl (flagShade group) [] = used at hflags
  refine ⟨⟨Int.natCast_nonneg _, fun e he hgroup hshade => ?_⟩, fun shade ⟨hnonneg, hfree⟩ => ?_⟩
  · have hset := (hflags _).mpr (.inr ⟨e, he, hgroup, hshade⟩)
    have hnot := List.findIdx_of_getElem?_eq_some hset
    cases hnot
  · obtain ⟨n, rfl⟩ := Int.eq_ofNat_of_zero_le hnonneg
    by_contra hlt
    have hbelow : n < used.findIdx fun used => !used := by omega
    have hlen : n < used.length := Nat.lt_of_lt_of_le hbelow List.findIdx_le_length
    have hset : used[n]? = some true := by
      rw [List.getElem?_eq_getElem hlen]
      simpa using List.not_of_lt_findIdx hbelow
    obtain hnone | ⟨e, he, hgroup, hshade⟩ := (hflags n).mp hset
    · simp at hnone
    · exact hfree e he hgroup hshade

end LibraryStore

/-! ### A library of rows, in two vectors -/

/-- The vectors of a library. -/
def TraceLibrary.store (lib : TraceLibrary) : LibraryStore where
  entries := lib.entries
  traces := lib.rows.map (·.2)
  revision := UInt64.ofNat lib.revision

namespace TraceLibrary

variable (lib : TraceLibrary)

theorem store_findEntry (id : Bytes) : lib.store.findEntry id = lib.entry id := by
  rw [LibraryStore.findEntry, LibraryStore.indexOf, ← List.find?_eq_getElem?_findIdx, entry]
  show (lib.rows.map (·.1)).find? _ = _
  rw [List.find?_map]
  rfl

theorem isSome_entry_iff (id : Bytes) : (lib.entry id).isSome ↔ id ∈ lib.ids := by
  rw [entry, Option.isSome_map, List.find?_isSome, ids, List.mem_map]
  simp only [decide_eq_true_eq]

theorem store_trace (id : Bytes) : lib.store.trace id = lib.trace id := by
  have hindex : lib.store.indexOf id = lib.rows.findIdx fun row => row.1.traceId = id := by
    rw [LibraryStore.indexOf]
    show (lib.rows.map (·.1)).findIdx _ = _
    rw [List.findIdx_map]
    rfl
  rw [LibraryStore.trace, hindex, trace, List.find?_eq_getElem?_findIdx]
  simp only [store, entries, List.length_map, List.getElem?_map]
  split_ifs with hlt
  · rfl
  · rw [List.getElem?_eq_none (Nat.le_of_not_lt hlt), Option.map_none]

theorem store_nextFreeShadeIndex (group : Bytes) :
    lib.store.nextFreeShadeIndex group = lib.nextFreeShadeIndex group := by
  have hused : ∀ shade, shade ∈ lib.usedShades group ↔
      ∃ e ∈ lib.store.entries, e.group = group ∧ e.shadeIndex = shade := by
    intro shade
    simp [usedShades, store, entries, and_assoc]
  refine (lib.store.nextFreeShadeIndex_isLeast group).unique
    ⟨⟨by rw [nextFreeShadeIndex]; exact Int.natCast_nonneg _, fun e he hgroup hshade => ?_⟩,
      fun shade ⟨hnonneg, hfree⟩ => ?_⟩
  · exact lib.nextFreeShadeIndex_free group ((hused _).mpr ⟨e, he, hgroup, hshade⟩)
  · obtain ⟨n, rfl⟩ := Int.eq_ofNat_of_zero_le hnonneg
    by_contra hlt
    obtain ⟨e, he, hgroup, hshade⟩ := (hused n).mp
      (lib.nextFreeShadeIndex_lowest group (not_le.mp hlt))
    exact hfree e he hgroup hshade

theorem store_add (newTrace : Trace UInt32) (name group : Bytes) :
    lib.store.add newTrace name group =
      ((lib.add newTrace name group).1, (lib.add newTrace name group).2.store) := by
  have hsome : (lib.store.findEntry newTrace.info.id).isSome ↔ newTrace.info.id ∈ lib.ids := by
    rw [store_findEntry, isSome_entry_iff]
  rw [LibraryStore.add, add]
  dsimp only
  by_cases hmem : newTrace.info.id ∈ lib.ids
  · rw [if_pos (hsome.mpr hmem), dif_pos hmem]
  · rw [if_neg (mt hsome.mp hmem), dif_neg hmem, store_nextFreeShadeIndex]
    simp [store, entries]

theorem set_findIdx_editRows (id : Bytes) (write : LibraryEntry → LibraryEntry) {e : LibraryEntry} :
    ∀ {rows : List LibraryRow}, (rows.map fun row => row.1.traceId).Nodup →
      (rows.map (·.1))[(rows.map (·.1)).findIdx fun e => e.traceId = id]? = some e →
      (rows.map (·.1)).set ((rows.map (·.1)).findIdx fun e => e.traceId = id) (write e) =
        (editRows id write rows).map (·.1)
  | [], _, _ => rfl
  | row :: rows, hnodup, hfound => by
    rw [List.map_cons, List.nodup_cons] at hnodup
    simp only [List.map_cons, List.findIdx_cons, editRows] at hfound ⊢
    by_cases hid : row.1.traceId = id
    · have hrest := editRows_of_not_mem (hid ▸ hnodup.1) write
      rw [editRows] at hrest
      simp only [hid, decide_true, cond_true, List.getElem?_cons_zero, Option.some.injEq] at hfound
      subst hfound
      simp only [hid, decide_true, cond_true, List.set_cons_zero, if_true, hrest]
    · simp only [hid, decide_false, cond_false, List.getElem?_cons_succ] at hfound
      have hrest := set_findIdx_editRows id write hnodup.2 hfound
      rw [editRows] at hrest
      simp only [hid, decide_false, cond_false, List.set_cons_succ, if_false, hrest]

theorem editRows_snd (id : Bytes) (write : LibraryEntry → LibraryEntry) (rows : List LibraryRow) :
    (editRows id write rows).map (·.2) = rows.map (·.2) := by
  rw [editRows, List.map_map]
  refine List.map_congr_left fun row _ => ?_
  simp only [Function.comp_apply]
  split <;> rfl

theorem store_edit {id : Bytes} {same : LibraryEntry → Bool} {write : LibraryEntry → LibraryEntry}
    (hwrite : ∀ e, (write e).traceId = e.traceId) (hsame : ∀ e, same e = true ↔ write e = e) :
    lib.store.edit id same write =
      ((lib.edit id write hwrite).1, (lib.edit id write hwrite).2.store) := by
  have hentry := lib.store_findEntry id
  rw [LibraryStore.edit, hentry, edit]
  cases hfound : lib.entry id with
  | none => rfl
  | some e =>
    rw [hfound] at hentry
    have hset := set_findIdx_editRows id write lib.nodup hentry
    dsimp only
    simp only [hsame]
    split_ifs
    · rfl
    · refine Prod.ext rfl ?_
      show LibraryStore.mk _ _ _ = LibraryStore.mk _ _ _
      rw [LibraryStore.mk.injEq]
      exact ⟨hset, (editRows_snd id write lib.rows).symm, (UInt64.ofNat_add _ _).symm⟩

theorem foldl_soloEntry (id : Bytes) (rows : List LibraryRow) (acc : List LibraryEntry × Bool) :
    (rows.map (·.1)).foldl (LibraryStore.soloEntry id) acc =
      (acc.1 ++ (rows.map (soloRow id)).map (·.1),
        acc.2 || rows.any fun row => row.1.visible ≠ decide (row.1.traceId = id)) := by
  induction rows generalizing acc with
  | nil => simp
  | cons row rows ih =>
    rw [List.map_cons, List.foldl_cons, ih]
    simp only [LibraryStore.soloEntry, soloRow, List.map_cons, List.any_cons]
    split_ifs with hflip
    · simp [hflip]
    · rw [not_not] at hflip
      simp [← hflip]

theorem store_soloOnly (id : Bytes) : lib.store.soloOnly id = (lib.soloOnly id).store := by
  have hnone : (lib.store.findEntry id).isNone ↔ id ∉ lib.ids := by
    rw [store_findEntry, ← isSome_entry_iff, Option.not_isSome_iff_eq_none,
      Option.isNone_iff_eq_none]
  rw [LibraryStore.soloOnly, soloOnly]
  by_cases hmem : id ∈ lib.ids
  · rw [if_neg (fun h => hnone.mp h hmem), if_pos hmem]
    have hswept := foldl_soloEntry id lib.rows ([], false)
    rw [List.nil_append, Bool.false_or] at hswept
    simp only [store, entries, hswept]
    by_cases hquiet : ∀ row ∈ lib.rows, row.1.visible = decide (row.1.traceId = id)
    · have hflag :
          (lib.rows.any fun row => row.1.visible ≠ decide (row.1.traceId = id)) = false := by
        rw [List.any_eq_false]
        intro row hrow
        simp [hquiet row hrow]
      have hrows : lib.rows.map (soloRow id) = lib.rows := by
        conv_rhs => rw [← List.map_id lib.rows]
        refine List.map_congr_left fun row hrow => ?_
        rw [soloRow, ← hquiet row hrow]
        rfl
      rw [if_pos hquiet, hflag, hrows]
      rfl
    · have hflag :
          (lib.rows.any fun row => row.1.visible ≠ decide (row.1.traceId = id)) = true := by
        rw [List.any_eq_true]
        simpa using hquiet
      rw [if_neg hquiet, hflag, if_pos rfl, LibraryStore.mk.injEq]
      refine ⟨rfl, ?_, (UInt64.ofNat_add _ _).symm⟩
      rw [List.map_map]
      rfl
  · rw [if_pos (hnone.mpr hmem), if_neg hmem]

theorem store_clear : lib.store.clear = lib.clear.store := by
  rw [LibraryStore.clear, clear]
  have hrows : lib.store.entries = [] ↔ lib.rows = [] := List.map_eq_nil_iff
  simp only [hrows]
  split_ifs
  · rfl
  · simp [store, entries, empty]

theorem store_rename (id : Bytes) (name : Bytes) :
    lib.store.rename id name = ((lib.rename id name).1, (lib.rename id name).2.store) := by
  refine lib.store_edit (fun e => ?_) fun e => ?_
  · rfl
  · cases e
    simp [eq_comm]

theorem store_setVisible (id : Bytes) (visible : Bool) :
    lib.store.setVisible id visible =
      ((lib.setVisible id visible).1, (lib.setVisible id visible).2.store) := by
  refine lib.store_edit (fun e => ?_) fun e => ?_
  · rfl
  · cases e
    simp [eq_comm]

theorem store_setGroup (id : Bytes) (group : Bytes) :
    lib.store.setGroup id group = ((lib.setGroup id group).1, (lib.setGroup id group).2.store) := by
  refine lib.store_edit (fun e => ?_) fun e => ?_
  · rfl
  · cases e
    simp [eq_comm]

theorem store_setShadeIndex (id : Bytes) (shadeIndex : ℤ) :
    lib.store.setShadeIndex id shadeIndex =
      ((lib.setShadeIndex id shadeIndex).1, (lib.setShadeIndex id shadeIndex).2.store) := by
  refine lib.store_edit (fun e => ?_) fun e => ?_
  · rfl
  · cases e
    simp [eq_comm]

/-- An operation on the vectors of a library is the one on the library. -/
theorem store_step (op : LibraryOp) : lib.store.step op = (lib.step op).store := by
  cases op with
  | add newTrace name group => exact congrArg Prod.snd (lib.store_add newTrace name group)
  | rename id name => exact congrArg Prod.snd (lib.store_rename id name)
  | setVisible id visible => exact congrArg Prod.snd (lib.store_setVisible id visible)
  | setGroup id group => exact congrArg Prod.snd (lib.store_setGroup id group)
  | setShadeIndex id shadeIndex => exact congrArg Prod.snd (lib.store_setShadeIndex id shadeIndex)
  | soloOnly id => exact lib.store_soloOnly id
  | clear => exact lib.store_clear

/-- The vectors of any history are those of a library. -/
theorem foldl_store_step (ops : List LibraryOp) :
    ops.foldl LibraryStore.step lib.store = (ops.foldl step lib).store := by
  induction ops generalizing lib with
  | nil => rfl
  | cons op ops ih => rw [List.foldl_cons, List.foldl_cons, store_step, ih]

/-! ### The revision -/

theorem edit_eq_or {id : Bytes} {f : LibraryEntry → LibraryEntry}
    (hf : ∀ e, (f e).traceId = e.traceId) :
    (lib.edit id f hf).2 = lib ∨ (lib.edit id f hf).2.revision = lib.revision + 1 ∧
      (lib.edit id f hf).2.rows ≠ lib.rows := by
  rw [edit]
  split
  · exact .inl rfl
  · rename_i e hfound
    split
    · exact .inl rfl
    · rename_i hchange
      refine .inr ⟨rfl, fun hrows => hchange ?_⟩
      rw [entry, Option.map_eq_some_iff] at hfound
      obtain ⟨row, hfind, rfl⟩ := hfound
      have hid := List.find?_some hfind
      rw [decide_eq_true_eq] at hid
      have hkept := List.map_inj_left.mp (hrows.trans (List.map_id lib.rows).symm) row
        (List.mem_of_find?_eq_some hfind)
      rw [if_pos hid] at hkept
      exact congrArg Prod.fst hkept

/-- An operation leaves the library as it is, or moves the revision by one with the rows. -/
theorem step_eq_or (op : LibraryOp) :
    lib.step op = lib ∨ (lib.step op).revision = lib.revision + 1 ∧
      (lib.step op).rows ≠ lib.rows := by
  cases op with
  | add newTrace name group =>
    rw [step, add]
    split_ifs
    · exact .inl rfl
    · exact .inr ⟨rfl, by simp⟩
  | rename | setVisible | setGroup | setShadeIndex => exact lib.edit_eq_or _
  | soloOnly id =>
    rw [step, soloOnly]
    split_ifs with hmem hquiet
    · exact .inl rfl
    · refine .inr ⟨rfl, fun hrows => hquiet fun row hrow => ?_⟩
      have hkept := List.map_inj_left.mp (hrows.trans (List.map_id lib.rows).symm) row hrow
      exact (congrArg (fun row : LibraryRow => row.1.visible) hkept).symm
    · exact .inl rfl
  | clear =>
    rw [step, clear]
    split_ifs with hnil
    · exact .inl rfl
    · exact .inr ⟨rfl, fun hrows => hnil hrows.symm⟩

end TraceLibrary

/-- **Headline.** After any history: the ids are unique, and the two vectors agree on them at every
index; and whatever comes next, either nothing moves, or the revision moves by one with an entry or
a capture, and an addition is filed under the least shade that is free in its group. -/
theorem libraryStore_history (ops : List LibraryOp) :
    let s := ops.foldl LibraryStore.step .empty
    (s.entries.map (·.traceId)).Nodup ∧
      (∀ i : ℕ, s.entries[i]?.map (·.traceId) = s.traces[i]?.map (·.info.id)) ∧
      (∀ op, (s.step op).revision = s.revision ∧ (s.step op).entries = s.entries ∧
            (s.step op).traces = s.traces ∨
          (s.step op).revision = s.revision + 1 ∧
            ((s.step op).entries ≠ s.entries ∨ (s.step op).traces ≠ s.traces)) ∧
      ∀ (newTrace : Trace UInt32) (name group : Bytes),
        (∀ e ∈ s.entries, e.traceId ≠ newTrace.info.id) →
        ∃ shade, (s.step (.add newTrace name group)).entries =
            s.entries ++ [⟨newTrace.info.id, name, group, shade, true⟩] ∧
          (s.step (.add newTrace name group)).traces = s.traces ++ [newTrace] ∧
          IsLeast {shade : ℤ | 0 ≤ shade ∧
            ∀ e ∈ s.entries, e.group = group → e.shadeIndex ≠ shade} shade := by
  have hstore := TraceLibrary.empty.foldl_store_step ops
  intro s
  obtain ⟨lib, hlib⟩ : ∃ lib : TraceLibrary, s = lib.store := ⟨_, hstore⟩
  rw [hlib]
  refine ⟨?_, fun i => ?_, fun op => ?_, fun newTrace name group hnew => ?_⟩
  · show ((lib.rows.map (·.1)).map (·.traceId)).Nodup
    rw [List.map_map]
    exact lib.nodup
  · show (lib.rows.map (·.1))[i]?.map _ = (lib.rows.map (·.2))[i]?.map _
    rw [List.getElem?_map, List.getElem?_map]
    cases hrow : lib.rows[i]? with
    | none => rfl
    | some row => exact congrArg some (lib.named row (List.mem_of_getElem? hrow))
  · rw [lib.store_step]
    obtain hsame | ⟨hrevision, hrows⟩ := lib.step_eq_or op
    · rw [hsame]
      exact .inl ⟨rfl, rfl, rfl⟩
    · refine .inr ⟨?_, ?_⟩
      · show UInt64.ofNat _ = UInt64.ofNat _ + 1
        rw [hrevision, UInt64.ofNat_add]
        rfl
      · rw [← not_and_or]
        rintro ⟨hentries, htraces⟩
        exact hrows ((List.zip_of_prod hentries htraces).trans (List.zip_of_prod rfl rfl).symm)
  · have habsent : newTrace.info.id ∉ lib.ids := by
      intro hmem
      obtain ⟨row, hrow, hid⟩ := List.mem_map.mp hmem
      exact hnew row.1 (List.mem_map_of_mem hrow) hid
    have hadd : lib.store.step (.add newTrace name group) =
        (lib.add newTrace name group).2.store := lib.store_step _
    refine ⟨lib.store.nextFreeShadeIndex group, ?_, ?_, lib.store.nextFreeShadeIndex_isLeast group⟩
    · rw [hadd, lib.store_nextFreeShadeIndex]
      show (lib.add newTrace name group).2.rows.map (·.1) = _
      rw [(TraceLibrary.add_of_not_mem habsent name group).2, List.map_append]
      rfl
    · rw [hadd]
      show (lib.add newTrace name group).2.rows.map (·.2) = _
      rw [(TraceLibrary.add_of_not_mem habsent name group).2, List.map_append]
      rfl

end RtaTool
