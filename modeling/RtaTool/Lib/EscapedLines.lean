import Mathlib.Data.List.Basic

/-!
# Line-oriented text with escapes

A text format of lines `key=value`: values are escaped so that they hold no newline, a line is cut
at its *first* assignment sign, and a reader drops one carriage return at the end of a line, so
that a text that has been through another system still reads.

The two last conventions do not commute with each other for free. Escaping leaves the carriage
return alone, so the reader cannot tell one that belonged to the value from one that was added in
transit, and what survives a round trip is the value with a final carriage return dropped
(`splitLines_writeLine`). Everything else survives: `unescape_escape`.

## Main definitions

* `LineFormat` -- the characters with a meaning, and that they are different
* `LineFormat.escape`, `unescape`, `stripTrailingCr`, `splitLine`, `splitLines`, `writeLine`
* `updateLast` -- a fallible update of a list's last element

## Main results

* `LineFormat.unescape_escape`, `LineFormat.stripTrailingCr_escape`
* `LineFormat.splitLine_keyLine`, `LineFormat.splitLines_writeLine`
* `foldlM_of_commutes` -- a fold inside a context is a fold of the part
-/

namespace RtaTool

/-- The characters that mean something in the format. -/
structure LineFormat (α : Type*) where
  newline : α
  esc : α
  newlineName : α
  carriageReturn : α
  assign : α
  esc_ne_newline : esc ≠ newline
  name_ne_newline : newlineName ≠ newline
  name_ne_esc : newlineName ≠ esc
  assign_ne_newline : assign ≠ newline
  cr_ne_newline : carriageReturn ≠ newline
  cr_ne_esc : carriageReturn ≠ esc
  cr_ne_name : carriageReturn ≠ newlineName
  cr_ne_assign : carriageReturn ≠ assign

namespace LineFormat

variable {α : Type*} [DecidableEq α] (F : LineFormat α)

/-! ### Escaping -/

/-- One character escaped. -/
def escapeChar (c : α) : List α :=
  if c = F.esc then [F.esc, F.esc] else if c = F.newline then [F.esc, F.newlineName] else [c]

/-- Escapes the escape character and the newline, and nothing else. -/
def escape (s : List α) : List α := s.flatMap F.escapeChar

/-- Reads escapes back. An escape character at the very end stands for itself. -/
def unescape : List α → List α
  | [] => []
  | [c] => [c]
  | c :: d :: s =>
    if c = F.esc then (if d = F.newlineName then F.newline else d) :: unescape s
    else c :: unescape (d :: s)

@[simp] theorem escape_nil : F.escape [] = [] := rfl

@[simp] theorem escape_cons (c : α) (s : List α) :
    F.escape (c :: s) = F.escapeChar c ++ F.escape s := rfl

theorem escape_append (s t : List α) : F.escape (s ++ t) = F.escape s ++ F.escape t :=
  List.flatMap_append

theorem unescape_cons_of_ne {c : α} (h : c ≠ F.esc) (s : List α) :
    F.unescape (c :: s) = c :: F.unescape s := by
  cases s with
  | nil => rfl
  | cons d s => rw [unescape, if_neg h]

theorem unescape_escape (s : List α) : F.unescape (F.escape s) = s := by
  induction s with
  | nil => rfl
  | cons c s ih =>
    rw [escape_cons, escapeChar]
    split
    · rename_i hc
      rw [List.cons_append, List.cons_append, unescape, if_pos rfl, if_neg F.name_ne_esc.symm,
        List.nil_append, ih, hc]
    · split
      · rename_i hc
        rw [List.cons_append, List.cons_append, unescape, if_pos rfl, if_pos rfl,
          List.nil_append, ih, hc]
      · rename_i hc _
        rw [List.cons_append, List.nil_append, F.unescape_cons_of_ne hc, ih]

theorem newline_notMem_escape (s : List α) : F.newline ∉ F.escape s := by
  induction s with
  | nil => simp
  | cons c s ih =>
    have hchar : F.newline ∉ F.escapeChar c := by
      have h1 := F.esc_ne_newline
      have h2 := F.name_ne_newline
      rw [escapeChar]
      split
      · simp [h1.symm]
      · split
        · simp [h1.symm, h2.symm]
        · rename_i hc
          simpa using fun h => hc h.symm
    simp [hchar, ih]

variable {key : List α} {s : List α}

/-- A text without special characters is its own escape. -/
theorem escape_eq_self (h : ∀ c ∈ s, c ≠ F.esc ∧ c ≠ F.newline) : F.escape s = s := by
  induction s with
  | nil => rfl
  | cons c s ih =>
    obtain ⟨hc, hs⟩ := List.forall_mem_cons.mp h
    rw [escape_cons, ih hs, escapeChar, if_neg hc.1, if_neg hc.2]
    rfl

/-! ### The carriage return at the end of a line -/

/-- Drops one carriage return at the end of a line. -/
def stripTrailingCr (line : List α) : List α :=
  if line.getLast? = some F.carriageReturn then line.dropLast else line

@[simp] theorem stripTrailingCr_nil : F.stripTrailingCr [] = [] := rfl

theorem stripTrailingCr_concat (s : List α) (c : α) :
    F.stripTrailingCr (s ++ [c]) = if c = F.carriageReturn then s else s ++ [c] := by
  simp [stripTrailingCr]

theorem stripTrailingCr_eq_self_iff :
    F.stripTrailingCr s = s ↔ s.getLast? ≠ some F.carriageReturn := by
  rw [stripTrailingCr]
  split
  · rename_i h
    refine iff_of_false (fun heq => ?_) (not_not.mpr h)
    have hne : s ≠ [] := by
      rintro rfl
      cases h
    have hlen := congrArg List.length heq
    have hpos := List.length_pos_iff.mpr hne
    rw [List.length_dropLast] at hlen
    omega
  · rename_i h
    exact iff_of_true rfl h

/-- Only the last part of a line can end in a carriage return. -/
theorem stripTrailingCr_append {s t : List α} (ht : t ≠ []) :
    F.stripTrailingCr (s ++ t) = s ++ F.stripTrailingCr t := by
  obtain ⟨u, c, rfl⟩ := (List.eq_nil_or_concat' t).resolve_left ht
  rw [← List.append_assoc, stripTrailingCr_concat, stripTrailingCr_concat]
  split
  · rfl
  · exact List.append_assoc _ _ _

theorem escapeChar_ne_nil (c : α) : F.escapeChar c ≠ [] := by
  rw [escapeChar]
  split
  · simp
  · split
    · simp
    · simp

theorem stripTrailingCr_escapeChar (c : α) :
    F.stripTrailingCr (F.escapeChar c) = if c = F.carriageReturn then [] else F.escapeChar c := by
  have h1 := F.cr_ne_esc
  have h2 := F.cr_ne_newline
  have h3 := F.cr_ne_name
  by_cases hc : c = F.carriageReturn
  · rw [escapeChar, hc, if_neg h1, if_neg h2, if_pos rfl]
    exact (F.stripTrailingCr_concat [] _).trans (if_pos rfl)
  · rw [if_neg hc, stripTrailingCr_eq_self_iff, escapeChar]
    split
    · simpa using h1.symm
    · split
      · simpa using h3.symm
      · simpa using hc

theorem stripTrailingCr_escape (s : List α) :
    F.stripTrailingCr (F.escape s) = F.escape (F.stripTrailingCr s) := by
  rcases List.eq_nil_or_concat' s with rfl | ⟨t, c, rfl⟩
  · rfl
  · have hlast : F.escape [c] = F.escapeChar c := List.append_nil _
    rw [escape_append, hlast, F.stripTrailingCr_append (F.escapeChar_ne_nil c),
      stripTrailingCr_escapeChar, stripTrailingCr_concat]
    split
    · exact List.append_nil _
    · rw [escape_append, hlast]

/-! ### Lines -/

/-- Cuts a line at its first assignment sign. -/
def splitLine : List α → Option (List α × List α)
  | [] => none
  | c :: s =>
    if c = F.assign then some ([], s) else (splitLine s).map fun kv => (c :: kv.1, kv.2)

/-- The lines of a text, each without a carriage return at its end. -/
def splitLines (text : List α) : List (List α) :=
  (text.splitOn F.newline).map F.stripTrailingCr

/-- `key=value` with the value escaped. -/
def keyLine (key value : List α) : List α := key ++ F.assign :: F.escape value

/-- The line of a key and a value, ended. -/
def writeLine (key value : List α) : List α := F.keyLine key value ++ [F.newline]

/-- A key is plain if it can stand before an assignment sign on a line. -/
def PlainKey (key : List α) : Prop := F.newline ∉ key ∧ F.assign ∉ key

instance (key : List α) : Decidable (F.PlainKey key) := inferInstanceAs (Decidable (_ ∧ _))

theorem splitLine_keyLine (hkey : F.assign ∉ key) (value : List α) :
    F.splitLine (F.keyLine key value) = some (key, F.escape value) := by
  induction key with
  | nil => simp [keyLine, splitLine]
  | cons c key ih =>
    obtain ⟨hc, hrest⟩ := not_or.mp (List.mem_cons.not.mp hkey)
    have hline : F.keyLine (c :: key) value = c :: F.keyLine key value := rfl
    rw [hline, splitLine, if_neg (Ne.symm hc), ih hrest]
    rfl

theorem assign_mem_keyLine (key value : List α) : F.assign ∈ F.keyLine key value := by
  simp [keyLine]

theorem newline_notMem_keyLine (hkey : F.newline ∉ key) (value : List α) :
    F.newline ∉ F.keyLine key value := by
  simp [keyLine, hkey, F.assign_ne_newline.symm, F.newline_notMem_escape]

theorem stripTrailingCr_keyLine (key value : List α) :
    F.stripTrailingCr (F.keyLine key value) = F.keyLine key (F.stripTrailingCr value) := by
  rw [keyLine, F.stripTrailingCr_append (by simp), keyLine]
  congr 1
  rcases eq_or_ne (F.escape value) [] with hnil | hne
  · rw [hnil, ← stripTrailingCr_escape, hnil]
    exact (F.stripTrailingCr_concat [] _).trans (if_neg F.cr_ne_assign.symm)
  · rw [← List.singleton_append, F.stripTrailingCr_append hne, stripTrailingCr_escape]
    rfl

@[simp] theorem splitLines_nil : F.splitLines [] = [[]] := rfl

/-- A line that is ended is the first of the text. -/
theorem splitLines_line {line : List α} (hline : F.newline ∉ line) (rest : List α) :
    F.splitLines (line ++ F.newline :: rest) = F.stripTrailingCr line :: F.splitLines rest := by
  rw [splitLines, List.splitOn_append_cons_self_of_not_mem hline]
  rfl

/-- What a reader finds of a line that was written: the key, and the value less a carriage return
at its end. -/
theorem splitLines_writeLine (hkey : F.PlainKey key) (value rest : List α) :
    F.splitLines (F.writeLine key value ++ rest) =
      F.keyLine key (F.stripTrailingCr value) :: F.splitLines rest := by
  rw [writeLine, List.append_assoc, List.singleton_append,
    F.splitLines_line (F.newline_notMem_keyLine hkey.1 value), stripTrailingCr_keyLine]

end LineFormat

/-! ### Folds that fail -/

/-- A fallible update of the last element; a list without one fails. -/
def updateLast {α : Type*} (f : α → Option α) : List α → Option (List α)
  | [] => none
  | [a] => (f a).map fun b => [b]
  | a :: b :: l => (updateLast f (b :: l)).map (a :: ·)

theorem updateLast_concat {α : Type*} (f : α → Option α) (l : List α) (a : α) :
    updateLast f (l ++ [a]) = (f a).map fun b => l ++ [b] := by
  induction l with
  | nil => rfl
  | cons c l ih =>
    have hcons : updateLast f (c :: (l ++ [a])) = (updateLast f (l ++ [a])).map (c :: ·) := by
      cases l with
      | nil => rfl
      | cons d l => rfl
    rw [List.cons_append, hcons, ih, Option.map_map]
    rfl

/-- A step that acts on one part of a state folds as it does on the part alone. -/
theorem foldlM_of_commutes {σ τ β : Type*} {step : σ → β → Option σ} {part : τ → β → Option τ}
    (put : τ → σ) (h : ∀ t b, step (put t) b = (part t b).map put) (bs : List β) (t : τ) :
    bs.foldlM step (put t) = (bs.foldlM part t).map put := by
  induction bs generalizing t with
  | nil => rfl
  | cons b bs ih =>
    rw [List.foldlM_cons, List.foldlM_cons, h]
    cases part t b with
    | none => rfl
    | some t' => exact ih t'

end RtaTool
