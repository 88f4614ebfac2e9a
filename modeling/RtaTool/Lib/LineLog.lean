import Mathlib.Data.List.DropRight

/-!
# Logs of lines

An append-only log of lines ended by a newline. A crash can cut it at any byte, so a reader takes
the text as it is: every ended line is judged -- an entry, something to skip, or nothing it knows --
and what follows the last newline is thrown away and counted, however well formed it looks.

The point of the count is that nothing else is lost. What a reader makes of *every* prefix of a
clean log is one theorem: the entries whose lines lie wholly inside it, and the length of the
fragment at its end.

## Main definitions

* `LineVerdict`, `LineReading`, `readLines`
* `joinLines`, `lineEnds` -- a log of given lines, and where each ends
* `fragment` -- what follows the last newline
* `endedLines` -- the lines before it
* `textLines` -- both, as `std::getline` gives them

## Main results

* `readLines_line`, `readLines_fragment` -- one ended line, and a text without one
* `readLines_joinLines_append`, `readLines_cut` -- a clean log, and every prefix of one
* `endedLines_cut` -- the ended lines of every prefix of a text that begins with given lines
-/

namespace RtaTool

variable {α β : Type*}

/-- What a reader makes of one line. -/
inductive LineVerdict (β : Type*)
  | skip
  | entry (x : β)
  | reject

/-- The entry of a line, if it is one. -/
def LineVerdict.toOption : LineVerdict β → Option β
  | .entry x => some x
  | _ => none

/-- The entries of a text, and how many of its characters were thrown away. -/
@[ext]
structure LineReading (β : Type*) where
  entries : List β
  discarded : ℕ
  deriving DecidableEq

namespace LineReading

/-- What a judged line of `size` characters adds. -/
def add (r : LineReading β) (verdict : LineVerdict β) (size : ℕ) : LineReading β :=
  match verdict with
  | .skip => r
  | .entry x => { r with entries := r.entries ++ [x] }
  | .reject => { r with discarded := r.discarded + size }

/-- One reading after another. -/
def append (r r' : LineReading β) : LineReading β :=
  ⟨r.entries ++ r'.entries, r.discarded + r'.discarded⟩

theorem add_append (r r' : LineReading β) (verdict : LineVerdict β) (size : ℕ) :
    (r.append r').add verdict size = r.append (r'.add verdict size) := by
  cases verdict with
  | skip => rfl
  | entry x => exact LineReading.ext (List.append_assoc ..) rfl
  | reject => exact LineReading.ext rfl (Nat.add_assoc ..)

end LineReading

section

variable [DecidableEq α] (newline : α)

/-- The text up to the first newline and the text after it. -/
def nextLine : List α → Option (List α × List α)
  | [] => none
  | c :: s => if c = newline then some ([], s) else (nextLine s).map fun l => (c :: l.1, l.2)

variable (judge : List α → LineVerdict β)

/-- The reading loop. A turn takes at least the newline, so the text's length is fuel enough. -/
def readLinesFrom : ℕ → List α → LineReading β → LineReading β
  | 0, _, r => r
  | fuel + 1, text, r =>
    if text = [] then r
    else
      match nextLine newline text with
      | none => { r with discarded := r.discarded + text.length }
      | some (line, rest) => readLinesFrom fuel rest (r.add (judge line) (line.length + 1))

/-- Reads a text from the start. -/
def readLines (text : List α) : LineReading β :=
  readLinesFrom newline judge text.length text ⟨[], 0⟩

/-- What follows the last newline. -/
def fragment (text : List α) : List α := text.rtakeWhile (· ≠ newline)

/-- The lines of a text that a newline ends. -/
def endedLines : List α → List (List α)
  | [] => []
  | c :: text =>
    if c = newline then [] :: endedLines text
    else
      match endedLines text with
      | [] => []
      | line :: lines => (c :: line) :: lines

/-- The lines of a text, the last of which may have no newline. -/
def textLines (text : List α) : List (List α) :=
  endedLines newline text ++ if fragment newline text = [] then [] else [fragment newline text]

/-- A log of lines. -/
def joinLines (lines : List (List α)) : List α := lines.flatMap (· ++ [newline])

/-! ### One line -/

variable {text : List α} {line : List α}

theorem nextLine_line (h : newline ∉ line) (rest : List α) :
    nextLine newline (line ++ newline :: rest) = some (line, rest) := by
  induction line with
  | nil => simp [nextLine]
  | cons c line ih =>
    obtain ⟨hc, hline⟩ := not_or.mp (List.mem_cons.not.mp h)
    rw [List.cons_append, nextLine, if_neg (Ne.symm hc), ih hline]
    rfl

theorem nextLine_of_notMem (h : newline ∉ text) : nextLine newline text = none := by
  induction text with
  | nil => rfl
  | cons c text ih =>
    obtain ⟨hc, htext⟩ := not_or.mp (List.mem_cons.not.mp h)
    rw [nextLine, if_neg (Ne.symm hc), ih htext]
    rfl

theorem length_of_nextLine {text line rest : List α} (h : nextLine newline text = some (line, rest)) :
    rest.length < text.length := by
  induction text generalizing line with
  | nil => cases h
  | cons c text ih =>
    rw [nextLine] at h
    split at h
    · cases h
      exact Nat.lt_succ_self _
    · obtain ⟨⟨line', rest'⟩, hl, heq⟩ := Option.map_eq_some_iff.mp h
      cases heq
      exact (ih hl).trans (Nat.lt_succ_self _)

theorem readLinesFrom_append (fuel : ℕ) (text : List α) (r r' : LineReading β) :
    readLinesFrom newline judge fuel text (r.append r') =
      r.append (readLinesFrom newline judge fuel text r') := by
  induction fuel generalizing text r' with
  | zero => rfl
  | succ fuel ih =>
    rw [readLinesFrom, readLinesFrom]
    split
    · rfl
    · split
      · exact LineReading.ext rfl (Nat.add_assoc ..)
      · rw [LineReading.add_append, ih]

theorem readLinesFrom_of_le {fuel : ℕ} (h : text.length ≤ fuel) (r : LineReading β) :
    readLinesFrom newline judge fuel text r = r.append (readLines newline judge text) := by
  have hfuel : ∀ (fuel fuel' : ℕ) (text : List α) (r : LineReading β), text.length ≤ fuel →
      text.length ≤ fuel' →
      readLinesFrom newline judge fuel text r = readLinesFrom newline judge fuel' text r := by
    intro fuel
    induction fuel with
    | zero =>
      intro fuel' text r h _
      obtain rfl : text = [] := List.eq_nil_of_length_eq_zero (Nat.le_zero.mp h)
      cases fuel' with
      | zero => rfl
      | succ fuel' => rw [readLinesFrom, readLinesFrom, if_pos rfl]
    | succ fuel ih =>
      intro fuel' text r h h'
      cases fuel' with
      | zero =>
        obtain rfl : text = [] := List.eq_nil_of_length_eq_zero (Nat.le_zero.mp h')
        rw [readLinesFrom, readLinesFrom, if_pos rfl]
      | succ fuel' =>
        rw [readLinesFrom, readLinesFrom]
        split
        · rfl
        · split
          · rfl
          · rename_i line rest hline
            have hlt := length_of_nextLine newline hline
            exact ih fuel' rest _ (by omega) (by omega)
  rw [readLines, ← readLinesFrom_append, hfuel fuel text.length text r h le_rfl]
  congr 1
  exact LineReading.ext (List.append_nil _).symm rfl

/-- An ended line is judged, and the rest is read on its own. -/
theorem readLines_line (h : newline ∉ line) (rest : List α) :
    readLines newline judge (line ++ newline :: rest) =
      (LineReading.add ⟨[], 0⟩ (judge line) (line.length + 1)).append
        (readLines newline judge rest) := by
  have hlen : (line ++ newline :: rest).length = (line ++ rest).length + 1 := by
    rw [List.length_append, List.length_cons, List.length_append]
    rfl
  rw [readLines, hlen, readLinesFrom, if_neg (by simp), nextLine_line newline h]
  exact readLinesFrom_of_le newline judge (by rw [List.length_append]; omega) _

/-- A text without a newline is thrown away. -/
theorem readLines_fragment (h : newline ∉ text) :
    readLines newline judge text = ⟨[], text.length⟩ := by
  cases text with
  | nil => rfl
  | cons c text =>
    rw [readLines, List.length_cons, readLinesFrom, if_neg (List.cons_ne_nil _ _),
      nextLine_of_notMem newline h]
    exact LineReading.ext rfl (Nat.zero_add _)

/-! ### Ended lines -/

theorem endedLines_line (h : newline ∉ line) (rest : List α) :
    endedLines newline (line ++ newline :: rest) = line :: endedLines newline rest := by
  induction line with
  | nil => simp [endedLines]
  | cons c line ih =>
    obtain ⟨hc, hline⟩ := not_or.mp (List.mem_cons.not.mp h)
    rw [List.cons_append, endedLines, if_neg (Ne.symm hc), ih hline]

theorem endedLines_of_notMem (h : newline ∉ text) : endedLines newline text = [] := by
  induction text with
  | nil => rfl
  | cons c text ih =>
    obtain ⟨hc, htext⟩ := not_or.mp (List.mem_cons.not.mp h)
    rw [endedLines, if_neg (Ne.symm hc), ih htext]

omit [DecidableEq α] in
theorem joinLines_cons (line : List α) (lines : List (List α)) :
    joinLines newline (line :: lines) = line ++ newline :: joinLines newline lines := by
  rw [joinLines, List.flatMap_cons, List.append_assoc]
  rfl

variable {lines : List (List α)}

theorem endedLines_joinLines (hlines : ∀ line ∈ lines, newline ∉ line) (rest : List α) :
    endedLines newline (joinLines newline lines ++ rest) = lines ++ endedLines newline rest := by
  induction lines with
  | nil => rfl
  | cons line lines ih =>
    obtain ⟨hline, htail⟩ := List.forall_mem_cons.mp hlines
    rw [joinLines_cons, List.append_assoc, List.cons_append, endedLines_line newline hline,
      ih htail, List.cons_append]

/-- A text that begins with given lines, cut anywhere: past them, or inside one of them, and then
the lines before it are the ended ones. -/
theorem endedLines_cut {p rest : List α}
    (hlines : ∀ line ∈ lines, newline ∉ line) (hp : p <+: joinLines newline lines ++ rest) :
    (∃ q, q <+: rest ∧ p = joinLines newline lines ++ q) ∨
      ∃ k < lines.length, endedLines newline p = lines.take k ∧
        (joinLines newline (lines.take k)).length ≤ p.length ∧
        p.length < (joinLines newline (lines.take (k + 1))).length := by
  induction lines generalizing p with
  | nil => exact .inl ⟨p, hp, rfl⟩
  | cons line lines ih =>
    obtain ⟨hline, htail⟩ := List.forall_mem_cons.mp hlines
    rw [joinLines_cons, List.append_assoc, List.cons_append] at hp
    rcases le_or_gt p.length line.length with hshort | hlong
    · -- the cut is inside the first line
      have hpl : p <+: line := List.prefix_of_prefix_length_le hp (List.prefix_append _ _) hshort
      refine .inr ⟨0, Nat.succ_pos _, ?_, Nat.zero_le _, ?_⟩
      · exact endedLines_of_notMem newline fun h => hline (hpl.subset h)
      · rw [List.take_succ_cons, List.take_zero, joinLines_cons, List.length_append,
          List.length_cons]
        omega
    · obtain ⟨q, rfl⟩ : ∃ q, p = line ++ newline :: q := by
        obtain ⟨q, hq⟩ := List.prefix_of_prefix_length_le
          (⟨joinLines newline lines ++ rest, by simp⟩ : line ++ [newline] <+: _) hp
          (by rw [List.length_append, List.length_singleton]; exact hlong)
        exact ⟨q, by rw [← hq, List.append_assoc]; rfl⟩
      have hq : q <+: joinLines newline lines ++ rest :=
        (List.cons_prefix_cons.mp ((List.prefix_append_right_inj line).mp hp)).2
      rcases ih htail hq with ⟨q', hq', rfl⟩ | ⟨k, hk, hended, hle, hlt⟩
      · refine .inl ⟨q', hq', ?_⟩
        rw [joinLines_cons, List.append_assoc, List.cons_append]
      · refine .inr ⟨k + 1, Nat.succ_lt_succ hk, ?_, ?_, ?_⟩
        · rw [endedLines_line newline hline, hended, List.take_succ_cons]
        · rw [List.take_succ_cons, joinLines_cons, List.length_append, List.length_append,
            List.length_cons, List.length_cons]
          omega
        · rw [List.take_succ_cons, joinLines_cons, List.length_append, List.length_append,
            List.length_cons, List.length_cons]
          omega

/-! ### Clean logs, cut anywhere -/

/-- Where each line ends, newline included, in a log that starts at `start`. -/
def lineEnds (start : ℕ) : List (List α) → List (List α × ℕ)
  | [] => []
  | line :: lines => (line, start + (line.length + 1)) :: lineEnds (start + (line.length + 1)) lines

omit [DecidableEq α] in
theorem lt_of_mem_lineEnds {start : ℕ} {e : List α × ℕ}
    (h : e ∈ lineEnds start lines) : start < e.2 := by
  induction lines generalizing start with
  | nil => cases h
  | cons line lines ih =>
    rcases List.mem_cons.mp h with rfl | h
    · exact Nat.lt_add_of_pos_right (Nat.succ_pos _)
    · exact lt_of_le_of_lt (Nat.le_add_right _ _) (ih h)

theorem fragment_of_notMem {text : List α} (h : newline ∉ text) : fragment newline text = text :=
  List.rtakeWhile_eq_self_iff.mpr fun c hc =>
    decide_eq_true fun heq => h (heq ▸ hc)

theorem fragment_line (line rest : List α) :
    fragment newline (line ++ newline :: rest) = fragment newline rest := by
  induction rest using List.reverseRecOn with
  | nil => simp [fragment, List.rtakeWhile_concat]
  | append_singleton rest c ih =>
    have hsplit : line ++ newline :: (rest ++ [c]) = (line ++ newline :: rest) ++ [c] := by simp
    rw [hsplit, fragment, fragment, List.rtakeWhile_concat, List.rtakeWhile_concat]
    split
    · rw [← fragment, ih, fragment]
    · rfl

theorem textLines_line {line : List α} (h : newline ∉ line) (rest : List α) :
    textLines newline (line ++ newline :: rest) = line :: textLines newline rest := by
  rw [textLines, textLines, endedLines_line newline h, fragment_line, List.cons_append]

theorem textLines_joinLines (hlines : ∀ line ∈ lines, newline ∉ line) :
    textLines newline (joinLines newline lines) = lines := by
  induction lines with
  | nil => rfl
  | cons line lines ih =>
    obtain ⟨hline, htail⟩ := List.forall_mem_cons.mp hlines
    rw [joinLines_cons, textLines_line newline hline, ih htail]

/-- A line is clean if it holds no newline and the reader knows what it is. -/
def CleanLine (line : List α) : Prop := newline ∉ line ∧ judge line ≠ .reject

variable {newline judge}

theorem CleanLine.add {line : List α} (h : CleanLine newline judge line) (size : ℕ) :
    LineReading.add ⟨[], 0⟩ (judge line) size = ⟨(judge line).toOption.toList, 0⟩ := by
  cases hj : judge line with
  | skip => rfl
  | entry x => rfl
  | reject => exact absurd hj h.2

/-- A clean log and a fragment after it: every entry, and the fragment thrown away. -/
theorem readLines_joinLines_append {rest : List α}
    (hclean : ∀ line ∈ lines, CleanLine newline judge line) (hrest : newline ∉ rest) :
    readLines newline judge (joinLines newline lines ++ rest) =
      ⟨lines.filterMap fun line => (judge line).toOption, rest.length⟩ := by
  induction lines with
  | nil => exact readLines_fragment newline judge hrest
  | cons line lines ih =>
    obtain ⟨hline, hlines⟩ := List.forall_mem_cons.mp hclean
    rw [joinLines_cons, List.append_assoc, List.cons_append, readLines_line newline judge hline.1,
      ih hlines, hline.add]
    refine LineReading.ext ?_ (Nat.zero_add _)
    cases hj : (judge line).toOption with
    | none => simp [LineReading.append, hj]
    | some x => simp [LineReading.append, hj]

/-- **A clean log cut anywhere.** The reader finds the entries whose lines lie wholly inside, in
order, and throws away what follows the last newline. -/
theorem readLines_cut {p : List α}
    (hclean : ∀ line ∈ lines, CleanLine newline judge line) (hp : p <+: joinLines newline lines)
    (start : ℕ) :
    readLines newline judge p =
      ⟨((lineEnds start lines).filter (·.2 ≤ start + p.length)).filterMap
          fun e => (judge e.1).toOption,
        (fragment newline p).length⟩ := by
  induction lines generalizing p start with
  | nil =>
    obtain rfl := List.prefix_nil.mp hp
    rfl
  | cons line lines ih =>
    obtain ⟨hline, hlines⟩ := List.forall_mem_cons.mp hclean
    rw [joinLines_cons] at hp
    by_cases hshort : p.length ≤ line.length
    · -- the cut is before the first newline
      have hpl : p <+: line := List.prefix_of_prefix_length_le hp (List.prefix_append _ _) hshort
      have hno : newline ∉ p := fun h => hline.1 (hpl.subset h)
      have hnone : (lineEnds start (line :: lines)).filter (·.2 ≤ start + p.length) = [] := by
        refine List.filter_eq_nil_iff.mpr fun e he hle => ?_
        rcases List.mem_cons.mp he with rfl | he
        · have := of_decide_eq_true hle
          dsimp only at this
          omega
        · have h1 := lt_of_mem_lineEnds he
          have h2 := of_decide_eq_true hle
          omega
      rw [readLines_fragment newline judge hno, hnone, fragment_of_notMem newline hno]
      rfl
    · obtain ⟨q, rfl⟩ : ∃ q, p = line ++ newline :: q := by
        have hle : (line ++ [newline]).length ≤ p.length := by
          rw [List.length_append, List.length_singleton]
          omega
        obtain ⟨q, hq⟩ := List.prefix_of_prefix_length_le
          (⟨joinLines newline lines, by simp⟩ : line ++ [newline] <+: _) hp hle
        exact ⟨q, by rw [← hq, List.append_assoc]; rfl⟩
      have hq : q <+: joinLines newline lines := by
        have h := (List.prefix_append_right_inj line).mp hp
        exact (List.cons_prefix_cons.mp h).2
      have hin : start + (line.length + 1) ≤ start + (line ++ newline :: q).length := by
        rw [List.length_append, List.length_cons]
        omega
      have hlen : start + (line ++ newline :: q).length = start + (line.length + 1) + q.length := by
        rw [List.length_append, List.length_cons]
        omega
      rw [readLines_line newline judge hline.1, ih hlines hq (start + (line.length + 1)),
        hline.add, fragment_line, lineEnds, List.filter_cons,
        if_pos (by exact decide_eq_true hin), hlen]
      refine LineReading.ext ?_ (Nat.zero_add _)
      cases hj : (judge line).toOption with
      | none => simp [LineReading.append, hj]
      | some x => simp [LineReading.append, hj]

end

end RtaTool
