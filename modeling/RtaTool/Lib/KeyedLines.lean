import Mathlib.Algebra.Order.Ring.Nat
import Mathlib.Data.List.Nodup
import RtaTool.Lib.EscapedLines
import RtaTool.Lib.LineLog

/-!
# Marked lines of keys and values, cut anywhere

A text of lines `mark key=value`. A reader that takes the last line as it is, ended or not, finds of
a text that is cut anywhere the keys whose assignment signs lie inside the cut, each with as much of
its value as does (`readPairs_cut`). Only the last of them can be short.

So what is found for a key is none of its value, the front of it or the whole (`lookup_cutPairs`),
and where one value is reached, those before it are whole.

## Main definitions

* `LineFormat.readPairs` -- the keys and values of a text
* `LineFormat.cutPairs` -- what is left of given ones
* `LineFormat.valueStart` -- where the value of a key begins in it

## Main results

* `LineFormat.readPairs_cut` -- **Headline.** What is found of a text that is cut anywhere
* `LineFormat.lookup_cutPairs`, `LineFormat.lookup_cutPairs_of_reached` -- and for each key
-/

namespace RtaTool

namespace LineFormat

variable {α : Type*} [DecidableEq α] (F : LineFormat α) (mark : List α)

/-! ### Reading and writing -/

/-- A line of a key and a value. -/
def markedLine (kv : List α × List α) : List α := mark ++ F.keyLine kv.1 kv.2

/-- The key and the value of a line, if it has any. -/
def readMarked (line : List α) : Option (List α × List α) :=
  if mark.isPrefixOf line then F.splitLine (line.drop mark.length) else none

/-- The keys and values of a text, in order. -/
def readPairs (text : List α) : List (List α × List α) :=
  (F.splitLines text).filterMap (F.readMarked mark)

/-- A pair without anything that means something in the format. -/
def PlainPair (kv : List α × List α) : Prop :=
  F.PlainKey kv.1 ∧ F.carriageReturn ∉ kv.1 ∧
    ∀ c ∈ kv.2, c ≠ F.esc ∧ c ≠ F.newline ∧ c ≠ F.carriageReturn

instance (kv : List α × List α) : Decidable (F.PlainPair kv) :=
  inferInstanceAs (Decidable (_ ∧ _ ∧ _))

omit [DecidableEq α] in
/-- Where the value of a line begins. -/
def valueOffset (key : List α) : ℕ := mark.length + key.length + 1

/-- How long lines are, newlines included. -/
def textLength (pairs : List (List α × List α)) : ℕ :=
  (pairs.map fun kv => valueOffset mark kv.1 + kv.2.length + 1).sum

/-- What is left of given pairs. -/
def cutPairs : List (List α × List α) → ℕ → List (List α × List α)
  | [], _ => []
  | (key, value) :: pairs, n =>
    if n < valueOffset mark key then []
    else
      (key, value.take (n - valueOffset mark key)) ::
        cutPairs pairs (n - (valueOffset mark key + value.length + 1))

/-! ### What is left -/

omit [DecidableEq α] in
theorem textLength_cons (kv : List α × List α) (pairs : List (List α × List α)) :
    textLength mark (kv :: pairs) =
      valueOffset mark kv.1 + kv.2.length + 1 + textLength mark pairs := by
  simp [textLength]

omit [DecidableEq α] in
@[simp] theorem cutPairs_zero (pairs : List (List α × List α)) : cutPairs mark pairs 0 = [] := by
  cases pairs with
  | nil => rfl
  | cons kv pairs => rw [cutPairs, if_pos (by rw [valueOffset]; omega)]

omit [DecidableEq α] in
theorem cutPairs_append {first second : List (List α × List α)} {n : ℕ}
    (h : textLength mark first ≤ n) :
    cutPairs mark (first ++ second) n =
      first ++ cutPairs mark second (n - textLength mark first) := by
  induction first generalizing n with
  | nil => simp [textLength]
  | cons kv first ih =>
    rw [textLength_cons] at h ⊢
    rw [List.cons_append, cutPairs, if_neg (by omega), List.take_of_length_le (by omega),
      ih (by omega), Nat.sub_sub, List.cons_append]

omit [DecidableEq α] in
omit [DecidableEq α] in
theorem map_fst_cutPairs_sublist (pairs : List (List α × List α)) (n : ℕ) :
    ((cutPairs mark pairs n).map Prod.fst).Sublist (pairs.map Prod.fst) := by
  induction pairs generalizing n with
  | nil => exact .slnil
  | cons kv pairs ih =>
    rw [cutPairs]
    split_ifs
    · exact List.nil_sublist _
    · exact (ih _).cons_cons _

variable {pairs : List (List α × List α)}

theorem lookup_eq_none_of_notMem {key : List α}
    (h : key ∉ pairs.map Prod.fst) : pairs.lookup key = none := by
  rw [List.lookup_eq_none_iff]
  intro kv hkv
  rw [bne_iff_ne]
  rintro rfl
  exact h (List.mem_map_of_mem hkv)

/-- Where the value of a key begins in the text. -/
def valueStart : List (List α × List α) → List α → ℕ
  | [], _ => 0
  | (key, value) :: pairs, wanted =>
    if key = wanted then valueOffset mark key
    else valueOffset mark key + value.length + 1 + valueStart pairs wanted

variable {key value : List α}

theorem valueStart_pos
    (hvalue : pairs.lookup key = some value) : 0 < valueStart mark pairs key := by
  cases pairs with
  | nil => cases hvalue
  | cons kv pairs =>
    rw [valueStart, valueOffset]
    split_ifs <;> omega

/-- What is found for one of the keys. -/
theorem lookup_cutPairs (hvalue : pairs.lookup key = some value) (n : ℕ) :
    (cutPairs mark pairs n).lookup key =
      if n < valueStart mark pairs key then none
      else some (value.take (n - valueStart mark pairs key)) := by
  induction pairs generalizing n with
  | nil => cases hvalue
  | cons kv pairs ih =>
    rw [List.lookup_cons] at hvalue
    rw [cutPairs, valueStart]
    by_cases hkey : kv.1 = key
    · rw [if_pos hkey]
      rw [hkey, beq_self_eq_true] at hvalue
      obtain rfl := Option.some.inj hvalue
      split_ifs
      · rfl
      · rw [hkey, List.lookup_cons_self]
    · have hbeq : (key == kv.1) = false := beq_eq_false_iff_ne.mpr (Ne.symm hkey)
      rw [hbeq] at hvalue
      rw [if_neg hkey]
      by_cases hshort : n < valueOffset mark kv.1
      · rw [if_pos hshort, if_pos (by omega)]
        rfl
      · rw [if_neg hshort, List.lookup_cons, hbeq]
        dsimp only
        rw [ih hvalue, Nat.sub_sub]
        by_cases hlt : n - (valueOffset mark kv.1 + kv.2.length + 1) < valueStart mark pairs key
        · rw [if_pos hlt, if_pos (by omega)]
        · have hstart := valueStart_pos mark hvalue
          rw [if_neg hlt, if_neg (by omega)]

theorem valueStart_append {first : List (List α × List α)} {key : List α}
    (hkey : key ∉ first.map Prod.fst) (value : List α) (second : List (List α × List α)) :
    valueStart mark (first ++ (key, value) :: second) key =
      textLength mark first + valueOffset mark key := by
  induction first with
  | nil => simp [valueStart, textLength]
  | cons kv first ih =>
    rw [List.map_cons, List.mem_cons, not_or] at hkey
    rw [List.cons_append, valueStart, if_neg (Ne.symm hkey.1), ih hkey.2, textLength_cons,
      Nat.add_assoc _ _ (valueOffset mark key)]

theorem lookup_of_mem (hnodup : (pairs.map Prod.fst).Nodup)
    {kv : List α × List α} (hkv : kv ∈ pairs) : pairs.lookup kv.1 = some kv.2 := by
  induction pairs with
  | nil => exact absurd hkv List.not_mem_nil
  | cons first pairs ih =>
    rw [List.map_cons, List.nodup_cons] at hnodup
    obtain rfl | hrest := List.mem_cons.mp hkv
    · exact List.lookup_cons_self
    · have hbeq : (kv.1 == first.1) = false := by
        rw [beq_eq_false_iff_ne]
        rintro heq
        exact hnodup.1 (heq ▸ List.mem_map_of_mem hrest)
      rw [List.lookup_cons, hbeq]
      exact ih hnodup.2 hrest

/-- What is found for the keys of a text that is cut. -/
theorem lookup_cutPairs_of_mem (hnodup : (pairs.map Prod.fst).Nodup) (n : ℕ) : ∀ kv ∈ pairs,
    (cutPairs mark pairs n).lookup kv.1 =
      if n < valueStart mark pairs kv.1 then none
      else some (kv.2.take (n - valueStart mark pairs kv.1)) := fun _ hkv =>
  lookup_cutPairs mark (lookup_of_mem hnodup hkv) n

theorem valueStart_add_lt (hvalue : pairs.lookup key = some value) :
    valueStart mark pairs key + value.length < textLength mark pairs := by
  induction pairs with
  | nil => cases hvalue
  | cons kv pairs ih =>
    rw [List.lookup_cons] at hvalue
    rw [valueStart, textLength_cons]
    by_cases hkey : kv.1 = key
    · rw [hkey, beq_self_eq_true] at hvalue
      obtain rfl := Option.some.inj hvalue
      rw [if_pos hkey]
      omega
    · rw [beq_eq_false_iff_ne.mpr (Ne.symm hkey)] at hvalue
      have hrest := ih hvalue
      rw [if_neg hkey]
      omega

/-- Where one value is reached, those before it are whole. -/
theorem lookup_cutPairs_of_reached {first second : List (List α × List α)}
    (hnodup : (first.map Prod.fst).Nodup) (hkey : key ∉ first.map Prod.fst) {n : ℕ}
    (hreached : valueStart mark (first ++ (key, value) :: second) key ≤ n) : ∀ kv ∈ first,
    (cutPairs mark (first ++ (key, value) :: second) n).lookup kv.1 = some kv.2 := by
  intro kv hkv
  rw [valueStart_append mark hkey] at hreached
  rw [cutPairs_append mark (by omega), List.lookup_append, lookup_of_mem hnodup hkv]
  rfl

/-! ### A text that is cut -/

variable {mark}

theorem splitLine_of_notMem {line : List α} (h : F.assign ∉ line) : F.splitLine line = none := by
  induction line with
  | nil => rfl
  | cons c line ih =>
    obtain ⟨hc, hline⟩ := not_or.mp (List.mem_cons.not.mp h)
    rw [splitLine, if_neg (Ne.symm hc), ih hline]
    rfl

theorem splitLine_append {key : List α} (hkey : F.assign ∉ key) (rest : List α) :
    F.splitLine (key ++ F.assign :: rest) = some (key, rest) := by
  induction key with
  | nil => exact if_pos rfl
  | cons c key ih =>
    obtain ⟨hc, hrest⟩ := not_or.mp (List.mem_cons.not.mp hkey)
    rw [List.cons_append, splitLine, if_neg (Ne.symm hc), ih hrest]
    rfl

theorem splitLines_of_notMem {text : List α} (h : F.newline ∉ text) :
    F.splitLines text = [F.stripTrailingCr text] := by
  rw [splitLines, List.splitOn_eq_singleton h]
  rfl

theorem stripTrailingCr_of_notMem {line : List α} (h : F.carriageReturn ∉ line) :
    F.stripTrailingCr line = line :=
  F.stripTrailingCr_eq_self_iff.mpr fun hlast => h (List.mem_of_getLast? hlast)

variable {F}

variable {kv : List α × List α} {p : List α}

theorem PlainPair.line (h : F.PlainPair kv) (hmark : F.newline ∉ mark ∧ F.carriageReturn ∉ mark) :
    F.markedLine mark kv = mark ++ kv.1 ++ F.assign :: kv.2 ∧ F.newline ∉ F.markedLine mark kv ∧
      F.carriageReturn ∉ F.markedLine mark kv := by
  obtain ⟨⟨hnewline, -⟩, hcr, hvalue⟩ := h
  have hline : F.markedLine mark kv = mark ++ kv.1 ++ F.assign :: kv.2 := by
    rw [markedLine, keyLine, F.escape_eq_self fun c hc => ⟨(hvalue c hc).1, (hvalue c hc).2.1⟩,
      List.append_assoc]
  refine ⟨hline, ?_, ?_⟩
  · rw [hline]
    simp only [List.mem_append, List.mem_cons, not_or]
    exact ⟨⟨hmark.1, hnewline⟩, F.assign_ne_newline.symm, fun hc => (hvalue _ hc).2.1 rfl⟩
  · rw [hline]
    simp only [List.mem_append, List.mem_cons, not_or]
    exact ⟨⟨hmark.2, hcr⟩, F.cr_ne_assign, fun hc => (hvalue _ hc).2.2 rfl⟩

/-- What is found of a line that is cut. -/
theorem PlainPair.readMarked_cut (h : F.PlainPair kv)
    (hp : p <+: mark ++ kv.1 ++ F.assign :: kv.2) :
    F.readMarked mark p = if p.length < valueOffset mark kv.1 then none
      else some (kv.1, kv.2.take (p.length - valueOffset mark kv.1)) := by
  obtain ⟨⟨-, hassign⟩, -, -⟩ := h
  have hkey : (mark ++ kv.1).length = mark.length + kv.1.length := List.length_append
  rw [readMarked, valueOffset]
  split_ifs with hprefix hshort hshort
  · -- the line ends inside the key
    have hinside : p <+: mark ++ kv.1 :=
      List.prefix_of_prefix_length_le hp (List.prefix_append _ _) (by omega)
    obtain ⟨part, rfl⟩ := List.isPrefixOf_iff_prefix.mp hprefix
    rw [List.drop_left]
    refine F.splitLine_of_notMem fun hmem => hassign ?_
    exact ((List.prefix_append_right_inj mark).mp hinside).subset hmem
  · obtain ⟨part, rfl⟩ := List.prefix_of_prefix_length_le (List.prefix_append (mark ++ kv.1) _) hp
      (by omega)
    rw [List.prefix_append_right_inj] at hp
    rw [List.length_append, hkey] at hshort ⊢
    obtain ⟨c, value, rfl⟩ := List.exists_cons_of_length_pos (l := part) (by omega)
    obtain ⟨rfl, hvalue⟩ := List.cons_prefix_cons.mp hp
    rw [List.append_assoc, List.drop_left, F.splitLine_append hassign,
      List.prefix_iff_eq_take.mp hvalue, List.length_cons]
    congr 4
    have hshorter := hvalue.length_le
    rw [List.length_take]
    omega
  · rfl
  · refine absurd (List.isPrefixOf_iff_prefix.mpr ?_) hprefix
    rw [List.append_assoc] at hp
    exact List.prefix_of_prefix_length_le (List.prefix_append _ _) hp (by omega)

theorem length_text (hpairs : ∀ kv ∈ pairs, F.PlainPair kv)
    (hmark : F.newline ∉ mark ∧ F.carriageReturn ∉ mark) :
    (joinLines F.newline (pairs.map (F.markedLine mark))).length = textLength mark pairs := by
  induction pairs with
  | nil => rfl
  | cons kv pairs ih =>
    obtain ⟨hkv, hrest⟩ := List.forall_mem_cons.mp hpairs
    rw [List.map_cons, joinLines_cons, textLength_cons, (hkv.line hmark).1, List.length_append,
      List.length_cons, ih hrest, valueOffset]
    simp only [List.length_append, List.length_cons]
    omega

/-- **Headline.** What is found of a text that is cut anywhere. -/
theorem readPairs_cut (hmark : mark ≠ [] ∧ F.newline ∉ mark ∧ F.carriageReturn ∉ mark)
    (hpairs : ∀ kv ∈ pairs, F.PlainPair kv)
    (hp : p <+: joinLines F.newline (pairs.map (F.markedLine mark))) :
    F.readPairs mark p = cutPairs mark pairs p.length := by
  induction pairs generalizing p with
  | nil =>
    obtain rfl := List.prefix_nil.mp hp
    have hempty : F.readMarked mark [] = none := by
      rw [readMarked, if_neg]
      intro hprefix
      exact hmark.1 (List.prefix_nil.mp (List.isPrefixOf_iff_prefix.mp hprefix))
    rw [readPairs, splitLines_nil, List.filterMap_cons, hempty]
    rfl
  | cons kv pairs ih =>
    obtain ⟨hkv, hrest⟩ := List.forall_mem_cons.mp hpairs
    obtain ⟨hline, hnewline, hcr⟩ := hkv.line hmark.2
    have hlength : (F.markedLine mark kv).length = valueOffset mark kv.1 + kv.2.length := by
      rw [hline, valueOffset]
      simp only [List.length_append, List.length_cons]
      omega
    rw [List.map_cons, joinLines_cons] at hp
    rw [cutPairs]
    obtain hshort | hlong := le_or_gt p.length (F.markedLine mark kv).length
    · have hinside : p <+: F.markedLine mark kv :=
        List.prefix_of_prefix_length_le hp (List.prefix_append _ _) hshort
      have hover : p.length - (valueOffset mark kv.1 + kv.2.length + 1) = 0 := by omega
      rw [readPairs, F.splitLines_of_notMem fun hc => hnewline (hinside.subset hc),
        F.stripTrailingCr_of_notMem fun hc => hcr (hinside.subset hc), List.filterMap_cons,
        hkv.readMarked_cut (hline ▸ hinside), hover, cutPairs_zero]
      split_ifs <;> rfl
    · obtain ⟨q, rfl⟩ : ∃ q, p = F.markedLine mark kv ++ F.newline :: q := by
        obtain ⟨q, hq⟩ := List.prefix_of_prefix_length_le
          (⟨joinLines F.newline (pairs.map (F.markedLine mark)), by simp⟩ :
            F.markedLine mark kv ++ [F.newline] <+: _) hp
          (by rw [List.length_append, List.length_singleton]; exact hlong)
        exact ⟨q, by rw [← hq, List.append_assoc]; rfl⟩
      have hq := (List.cons_prefix_cons.mp ((List.prefix_append_right_inj _).mp hp)).2
      have hread : F.readMarked mark (F.markedLine mark kv) = some kv := by
        rw [hkv.readMarked_cut (hline ▸ List.prefix_rfl), if_neg (by omega),
          List.take_of_length_le (by omega)]
      have hlong' : (F.markedLine mark kv ++ F.newline :: q).length =
          valueOffset mark kv.1 + kv.2.length + 1 + q.length := by
        rw [List.length_append, List.length_cons, hlength]
        omega
      rw [readPairs, F.splitLines_line hnewline, F.stripTrailingCr_of_notMem hcr,
        List.filterMap_cons, hread, hlong', if_neg (by omega), List.take_of_length_le (by omega),
        Nat.add_sub_cancel_left, ← ih hrest hq]
      rfl

end LineFormat

end RtaTool
