import RtaTool.Trace.SessionCodec

/-!
# The trace library

`TraceLibrary.cpp`: the captures an operator has taken, in the order they were added, each with the
name, group, shade and visibility it is shown under.

`entries_` and `traces_` are parallel vectors there; here they are one list of rows. That an entry
carries its capture's id, and that no id comes twice, are fields of the structure, so `add` must
refuse a duplicate to build a library at all.

## Main definitions

* `TraceLibrary`, `TraceLibrary.ids`
* `add`, `edit` and its four setters, `soloOnly`, `clear`

## Main results

* `edit_rows` -- a setter changes the row of its id and no other, whether or not it counts as a
  change
* `nextFreeShadeIndex_free`, `nextFreeShadeIndex_lowest` -- the shade a new capture is given
-/

namespace RtaTool

/-- An entry and its capture. -/
abbrev LibraryRow : Type := LibraryEntry × Trace UInt32

/-- `TraceLibrary`. -/
structure TraceLibrary where
  rows : List LibraryRow
  revision : ℕ
  named : ∀ row ∈ rows, row.1.traceId = row.2.info.id
  nodup : (rows.map fun row => row.1.traceId).Nodup

namespace TraceLibrary

/-- A library when it is made. -/
def empty : TraceLibrary where
  rows := []
  revision := 0
  named := fun _ h => absurd h List.not_mem_nil
  nodup := List.nodup_nil

instance : Inhabited TraceLibrary := ⟨empty⟩

/-- The ids in the library, in order. -/
def ids (lib : TraceLibrary) : List Bytes := lib.rows.map fun row => row.1.traceId

/-- `entries()`. -/
def entries (lib : TraceLibrary) : List LibraryEntry := lib.rows.map (·.1)

/-- `entry(id)`. -/
def entry (lib : TraceLibrary) (id : Bytes) : Option LibraryEntry :=
  (lib.rows.find? fun row => row.1.traceId = id).map (·.1)

/-- `trace(id)`. -/
def trace (lib : TraceLibrary) (id : Bytes) : Option (Trace UInt32) :=
  (lib.rows.find? fun row => row.1.traceId = id).map (·.2)

/-! ### Adding -/

/-- The shades in use in a group. -/
def usedShades (lib : TraceLibrary) (group : Bytes) : List ℤ :=
  (lib.rows.filter fun row => row.1.group = group).map (·.1.shadeIndex)

/-- The size the vector of flags has grown to: one past the largest shade in use. -/
def usedSize (used : List ℤ) : ℕ := used.foldl (fun size shade => max size (shade + 1).toNat) 0

/-- `nextFreeShadeIndex(group)`: the first flag not set, or one past the last. -/
def nextFreeShadeIndex (lib : TraceLibrary) (group : Bytes) : ℤ :=
  let used := lib.usedShades group
  (((List.range (usedSize used)).find? fun i : ℕ => (i : ℤ) ∉ used).getD (usedSize used) : ℕ)

variable {rows : List LibraryRow}

theorem named_append {row : LibraryRow}
    (hrows : ∀ row ∈ rows, row.1.traceId = row.2.info.id) (hrow : row.1.traceId = row.2.info.id) :
    ∀ r ∈ rows ++ [row], r.1.traceId = r.2.info.id := by
  intro r hr
  rcases List.mem_append.mp hr with hold | hnew
  · exact hrows r hold
  · rw [List.mem_singleton.mp hnew]
    exact hrow

theorem nodup_append {row : LibraryRow} (hrows : (rows.map fun row => row.1.traceId).Nodup)
    (hrow : row.1.traceId ∉ rows.map fun row => row.1.traceId) :
    ((rows ++ [row]).map fun row => row.1.traceId).Nodup := by
  rw [List.map_append]
  refine List.Nodup.append hrows (List.nodup_singleton _) ?_
  intro id hold hnew
  rw [List.mem_singleton.mp hnew] at hold
  exact hrow hold

/-- `add(newTrace, name, group)`: the id that was stored, or no id for a duplicate. -/
def add (lib : TraceLibrary) (tr : Trace UInt32) (name group : Bytes) : Bytes × TraceLibrary :=
  if h : tr.info.id ∈ lib.ids then ([], lib)
  else
    (tr.info.id,
      { rows := lib.rows ++
          [(⟨tr.info.id, name, group, lib.nextFreeShadeIndex group, true⟩, tr)]
        revision := lib.revision + 1
        named := named_append lib.named rfl
        nodup := nodup_append lib.nodup h })

/-! ### Editing -/

/-- The rows after `f` has been applied to the entry of `id`. -/
def editRows (id : Bytes) (f : LibraryEntry → LibraryEntry) (rows : List LibraryRow) :
    List LibraryRow :=
  rows.map fun row => if row.1.traceId = id then (f row.1, row.2) else row

variable {f : LibraryEntry → LibraryEntry}

theorem editRows_ids (hf : ∀ e, (f e).traceId = e.traceId) (id : Bytes) (rows : List LibraryRow) :
    (editRows id f rows).map (fun row => row.1.traceId) = rows.map fun row => row.1.traceId := by
  rw [editRows, List.map_map]
  refine List.map_congr_left fun row _ => ?_
  simp only [Function.comp_apply]
  split
  · exact hf row.1
  · rfl

theorem editRows_named (hf : ∀ e, (f e).traceId = e.traceId)
    {id : Bytes} (hrows : ∀ row ∈ rows, row.1.traceId = row.2.info.id) :
    ∀ row ∈ editRows id f rows, row.1.traceId = row.2.info.id := by
  intro row hrow
  obtain ⟨old, hold, rfl⟩ := List.mem_map.mp hrow
  split
  · exact (hf old.1).trans (hrows old hold)
  · exact hrows old hold

/-- A setter: `false` for an unknown id, and a revision only for a change. -/
def edit (lib : TraceLibrary) (id : Bytes) (f : LibraryEntry → LibraryEntry)
    (hf : ∀ e, (f e).traceId = e.traceId) : Bool × TraceLibrary :=
  match lib.entry id with
  | none => (false, lib)
  | some e =>
    if f e = e then (true, lib)
    else
      (true,
        { rows := editRows id f lib.rows
          revision := lib.revision + 1
          named := editRows_named hf lib.named
          nodup := (editRows_ids hf id lib.rows).symm ▸ lib.nodup })

/-- `rename(id, name)`. -/
def rename (lib : TraceLibrary) (id name : Bytes) : Bool × TraceLibrary :=
  lib.edit id (fun e => { e with name := name }) fun _ => rfl

/-- `setVisible(id, visible)`. -/
def setVisible (lib : TraceLibrary) (id : Bytes) (visible : Bool) : Bool × TraceLibrary :=
  lib.edit id (fun e => { e with visible := visible }) fun _ => rfl

/-- `setGroup(id, group)`. -/
def setGroup (lib : TraceLibrary) (id group : Bytes) : Bool × TraceLibrary :=
  lib.edit id (fun e => { e with group := group }) fun _ => rfl

/-- `setShadeIndex(id, shadeIndex)`. -/
def setShadeIndex (lib : TraceLibrary) (id : Bytes) (shadeIndex : ℤ) : Bool × TraceLibrary :=
  lib.edit id (fun e => { e with shadeIndex := shadeIndex }) fun _ => rfl

/-- A row with its capture shown exactly if it is the one of `id`. -/
def soloRow (id : Bytes) (row : LibraryRow) : LibraryRow :=
  ({ row.1 with visible := row.1.traceId = id }, row.2)

theorem soloRow_ids (id : Bytes) (rows : List LibraryRow) :
    (rows.map (soloRow id)).map (fun row => row.1.traceId) = rows.map fun row => row.1.traceId := by
  rw [List.map_map]
  rfl

theorem soloRow_named {id : Bytes} (hrows : ∀ row ∈ rows, row.1.traceId = row.2.info.id) :
    ∀ row ∈ rows.map (soloRow id), row.1.traceId = row.2.info.id := by
  intro row hrow
  obtain ⟨old, hold, rfl⟩ := List.mem_map.mp hrow
  exact hrows old hold

/-- `soloOnly(id)`: one revision at most, and nothing for an unknown id. -/
def soloOnly (lib : TraceLibrary) (id : Bytes) : TraceLibrary :=
  if id ∈ lib.ids then
    if ∀ row ∈ lib.rows, row.1.visible = decide (row.1.traceId = id) then lib
    else
      { rows := lib.rows.map (soloRow id)
        revision := lib.revision + 1
        named := soloRow_named lib.named
        nodup := (soloRow_ids id lib.rows).symm ▸ lib.nodup }
  else lib

/-- `clear()`. -/
def clear (lib : TraceLibrary) : TraceLibrary :=
  if lib.rows = [] then lib else { empty with revision := lib.revision + 1 }

/-! ### What the operations do to the rows -/

section

variable (lib : TraceLibrary)

@[simp] theorem clear_rows : lib.clear.rows = [] := by
  rw [clear]
  split
  · assumption
  · rfl

@[simp] theorem clear_ids : lib.clear.ids = [] := by
  rw [ids, clear_rows, List.map_nil]

variable {tr : Trace UInt32}

theorem add_of_mem {lib : TraceLibrary} (h : tr.info.id ∈ lib.ids)
    (name group : Bytes) : lib.add tr name group = ([], lib) := by rw [add, dif_pos h]

theorem add_of_not_mem {lib : TraceLibrary} (h : tr.info.id ∉ lib.ids) (name group : Bytes) :
    (lib.add tr name group).1 = tr.info.id ∧
      (lib.add tr name group).2.rows = lib.rows ++
        [(⟨tr.info.id, name, group, lib.nextFreeShadeIndex group, true⟩, tr)] := by
  rw [add, dif_neg h]
  exact ⟨rfl, rfl⟩

/-- Adding never takes an id away, and brings in none but the capture's. -/
theorem mem_ids_add {lib : TraceLibrary} (name group : Bytes) {id : Bytes} :
    id ∈ (lib.add tr name group).2.ids ↔ id ∈ lib.ids ∨ id = tr.info.id := by
  by_cases h : tr.info.id ∈ lib.ids
  · rw [add_of_mem h]
    constructor
    · exact Or.inl
    · rintro (hid | rfl)
      · exact hid
      · exact h
  · rw [ids, (add_of_not_mem h name group).2, List.map_append, List.mem_append, ids]
    simp

theorem editRows_of_not_mem {id : Bytes}
    (h : id ∉ rows.map fun row => row.1.traceId) (f : LibraryEntry → LibraryEntry) :
    editRows id f rows = rows := by
  rw [editRows]
  conv_rhs => rw [← List.map_id rows]
  refine List.map_congr_left fun row hrow => if_neg ?_
  rintro rfl
  exact h (List.mem_map_of_mem hrow)

theorem editRows_append_self (row : LibraryRow)
    (h : row.1.traceId ∉ rows.map fun row => row.1.traceId) (f : LibraryEntry → LibraryEntry) :
    editRows row.1.traceId f (rows ++ [row]) = rows ++ [(f row.1, row.2)] := by
  have hold := editRows_of_not_mem h f
  rw [editRows] at hold ⊢
  rw [List.map_append, hold, List.map_singleton, if_pos rfl]

/-- A setter leaves the rows with `f` applied at its id, also where it reports no change. -/
theorem edit_rows (id : Bytes) (f : LibraryEntry → LibraryEntry)
    (hf : ∀ e, (f e).traceId = e.traceId) :
    (lib.edit id f hf).2.rows = editRows id f lib.rows := by
  rw [edit]
  split
  · rename_i hnone
    refine (editRows_of_not_mem (fun hmem => ?_) f).symm
    rw [entry, Option.map_eq_none_iff, List.find?_eq_none] at hnone
    obtain ⟨row, hrow, hid⟩ := List.mem_map.mp hmem
    exact hnone row hrow (decide_eq_true hid)
  · rename_i e he
    split
    · rename_i hsame
      rw [entry, Option.map_eq_some_iff] at he
      obtain ⟨found, hfound, rfl⟩ := he
      have hfind := List.find?_some hfound
      have hid : found.1.traceId = id := of_decide_eq_true hfind
      rw [editRows]
      conv_lhs => rw [← List.map_id lib.rows]
      refine List.map_congr_left fun row hrow => ?_
      split
      · -- no id comes twice, so the row is the one that was found
        rename_i hrowid
        have heq : row = found := List.inj_on_of_nodup_map lib.nodup hrow
          (List.mem_of_find?_eq_some hfound) (hrowid.trans hid.symm)
        rw [heq, hsame]
        rfl
      · rfl
    · rfl

theorem edit_ids (id : Bytes) (f : LibraryEntry → LibraryEntry)
    (hf : ∀ e, (f e).traceId = e.traceId) : (lib.edit id f hf).2.ids = lib.ids := by
  rw [ids, edit_rows, editRows_ids hf, ids]

/-! ### The shade of a new capture -/

theorem toNat_le_usedSize {used : List ℤ} {shade : ℤ} (h : shade ∈ used) :
    (shade + 1).toNat ≤ usedSize used := by
  have hgrow : ∀ (l : List ℤ) (size : ℕ),
      size ≤ l.foldl (fun size shade => max size (shade + 1).toNat) size ∧
        ∀ s ∈ l, (s + 1).toNat ≤ l.foldl (fun size shade => max size (shade + 1).toNat) size := by
    intro l
    induction l with
    | nil => exact fun size => ⟨Nat.le_refl _, fun s hs => absurd hs List.not_mem_nil⟩
    | cons x l ih =>
      intro size
      obtain ⟨hle, hmem⟩ := ih (max size (x + 1).toNat)
      refine ⟨Nat.le_trans (Nat.le_max_left _ _) hle, fun s hs => ?_⟩
      rcases List.mem_cons.mp hs with rfl | hs
      · exact Nat.le_trans (Nat.le_max_right _ _) hle
      · exact hmem s hs
  exact (hgrow used 0).2 shade h

/-- No capture of the group has the shade a new one is given. -/
theorem nextFreeShadeIndex_free (group : Bytes) :
    lib.nextFreeShadeIndex group ∉ lib.usedShades group := by
  rw [nextFreeShadeIndex]
  cases hfind : (List.range (usedSize (lib.usedShades group))).find?
      fun i : ℕ => (i : ℤ) ∉ lib.usedShades group with
  | some i =>
    have hfree := List.find?_some hfind
    exact of_decide_eq_true hfree
  | none =>
    intro hmem
    have hle := toNat_le_usedSize hmem
    rw [Option.getD_none] at hle
    omega

/-- Every smaller shade is in use. -/
theorem nextFreeShadeIndex_lowest (group : Bytes) {i : ℕ}
    (h : (i : ℤ) < lib.nextFreeShadeIndex group) : (i : ℤ) ∈ lib.usedShades group := by
  rw [nextFreeShadeIndex] at h
  by_contra hfree
  cases hfind : (List.range (usedSize (lib.usedShades group))).find?
      fun i : ℕ => (i : ℤ) ∉ lib.usedShades group with
  | some k =>
    rw [hfind, Option.getD_some] at h
    rw [List.find?_range_eq_some] at hfind
    exact absurd hfree (by simpa using hfind.2.2 i (by omega))
  | none =>
    rw [hfind, Option.getD_none] at h
    rw [List.find?_eq_none] at hfind
    exact hfind i (List.mem_range.mpr (by omega)) (decide_eq_true hfree)

end

end TraceLibrary

end RtaTool
