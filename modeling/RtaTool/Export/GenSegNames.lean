import RtaTool.Export.SplLogWriter

/-!
# Names of segments that are too long for a number

`parseGenSeg` converts each run of digits by `std::stoull`, which throws when the number has more
than 64 bits, and nothing on the way out of `readChannelLog` catches it. So a file whose name starts
like that of a segment, with too long a number in it, ends the reading of the whole folder; every
other name is read as it should be.

## Main definitions

* `stoull`, `parseGenSegChecked`, `readChannelLogChecked` -- the functions, with what they throw
* `SegmentFileName` -- the names that stand for a segment
* `Overlong` -- the names on which the conversion throws

## Main results

* `parseGenSegChecked_ok_some_iff`, `parseGenSegChecked_error_iff` -- the outcomes
* `readChannelLogChecked_eq` -- what the folder is read as, where nothing is thrown
* `parseGenSegChecked_meets_iff` -- **Headline.** Exactly the names that are read as they should be
-/

namespace RtaTool

/-! ### The reader, with its exceptions -/

/-- `std::out_of_range`. -/
inductive OutOfRange
  | mk
  deriving DecidableEq

/-- `std::stoull`, of a row of digits. -/
def stoull (digits : Bytes) : Except OutOfRange ℕ :=
  if decimalValue digits < 2 ^ 64 then .ok (decimalValue digits) else .error .mk

/-- `parseGenSeg`, from behind the first number on. -/
def parseSegChecked (gen : ℕ) (rest : Bytes) : Except OutOfRange (Option (ℕ × ℕ)) :=
  match afterMarker (bytes ".seg") rest with
  | none => .ok none
  | some rest =>
    if rest.takeWhile isDigit = [] then .ok none
    else do
      let seg ← stoull (rest.takeWhile isDigit)
      if rest.dropWhile isDigit ≠ bytes ".csv" then return none
      else return some (gen, seg)

/-- `parseGenSeg`. -/
def parseGenSegChecked (name basename : Bytes) : Except OutOfRange (Option (ℕ × ℕ)) :=
  match afterMarker (basename ++ bytes ".gen") name with
  | none => .ok none
  | some rest =>
    if rest.takeWhile isDigit = [] then .ok none
    else do
      let gen ← stoull (rest.takeWhile isDigit)
      parseSegChecked gen (rest.dropWhile isDigit)

/-- One turn of the loop over the files of the folder. -/
def segmentFile (channel : ℤ) (f : Bytes × Bytes) :
    Except OutOfRange (Option ((ℕ × ℕ) × Bytes × Bytes)) := do
  let gs ← parseGenSegChecked f.1 (channelStem channel)
  return gs.map fun gs => (gs, f)

/-- `readChannelLog`, over a listing of the folder's files. -/
def readChannelLogChecked {D F H : Type} (nums : LogNumbers D F) (parseHeader : Bytes → Option H)
    (entries : List (Bytes × Bytes)) (channel : ℤ) : Except OutOfRange (ChannelLog D F H) := do
  let files ← entries.mapM (segmentFile channel)
  let files := files.reduceOption.mergeSort fun a b => !segmentBefore b.1 a.1
  return files.foldl (.readFile nums parseHeader) {}

/-! ### What a name should be read as -/

/-- One or more digits, the text of `value`. -/
def DigitRun (digits : Bytes) (value : ℕ) : Prop :=
  digits ≠ [] ∧ (∀ c ∈ digits, isDigit c = true) ∧ decimalValue digits = value

/-- The name of a segment: both its numbers are at least a digit long and have 64 bits. -/
def SegmentFileName (name basename : Bytes) (gen seg : ℕ) : Prop :=
  gen < 2 ^ 64 ∧ seg < 2 ^ 64 ∧ ∃ ds es, DigitRun ds gen ∧ DigitRun es seg ∧
    name = basename ++ bytes ".gen" ++ ds ++ bytes ".seg" ++ es ++ bytes ".csv"

/-- The name starts like that of a segment, up to a number of more than 64 bits. -/
def Overlong (name basename : Bytes) : Prop :=
  (∃ ds gen rest, DigitRun ds gen ∧ 2 ^ 64 ≤ gen ∧
    name = basename ++ bytes ".gen" ++ ds ++ rest) ∨
  ∃ ds gen es seg rest, DigitRun ds gen ∧ DigitRun es seg ∧ 2 ^ 64 ≤ seg ∧
    name = basename ++ bytes ".gen" ++ ds ++ bytes ".seg" ++ es ++ rest

/-! ### Runs of digits -/

theorem le_decimalValue_append (ds es : Bytes) : decimalValue ds ≤ decimalValue (ds ++ es) := by
  induction es using List.reverseRecOn with
  | nil => rw [List.append_nil]
  | append_singleton es e ih =>
    have hlast : decimalValue (ds ++ (es ++ [e])) =
        10 * decimalValue (ds ++ es) + (e.toNat - 48) := by
      rw [← List.append_assoc, decimalValue, List.foldl_append]
      rfl
    omega

variable {digits : Bytes} {value : ℕ}

theorem stoull_eq_ok :
    stoull digits = .ok value ↔ decimalValue digits = value ∧ value < 2 ^ 64 := by
  rw [stoull]
  split_ifs with hlt
  · constructor
    · intro h
      obtain rfl := Except.ok.inj h
      exact ⟨rfl, hlt⟩
    · rintro ⟨rfl, _⟩
      rfl
  · refine iff_of_false (by rintro ⟨⟩) ?_
    rintro ⟨rfl, h⟩
    exact hlt h

theorem stoull_eq_error {e : OutOfRange} :
    stoull digits = .error e ↔ 2 ^ 64 ≤ decimalValue digits := by
  rw [stoull]
  split_ifs with hlt
  · exact iff_of_false (by rintro ⟨⟩) (not_le.mpr hlt)
  · cases e
    exact iff_of_true rfl (not_lt.mp hlt)

theorem afterMarker_eq_some {marker text rest : Bytes} :
    afterMarker marker text = some rest ↔ text = marker ++ rest := by
  constructor
  · intro h
    rw [afterMarker] at h
    split_ifs at h with hprefix
    obtain ⟨t, rfl⟩ := List.isPrefixOf_iff_prefix.mp hprefix
    rw [List.drop_left] at h
    rw [Option.some.inj h]
  · rintro rfl
    exact afterMarker_append marker rest

/-- The digits at the front of a text that goes on with something else. -/
theorem takeWhile_digits {ds rest : Bytes} (hds : ∀ c ∈ ds, isDigit c = true)
    (hrest : ∀ c ∈ rest.head?, isDigit c = false) :
    (ds ++ rest).takeWhile isDigit = ds ∧ (ds ++ rest).dropWhile isDigit = rest := by
  rw [List.takeWhile_append_of_pos hds, List.dropWhile_append_of_pos hds]
  cases rest with
  | nil => simp
  | cons c rest => simp [hrest c rfl]

theorem not_isDigit_of_dropWhile (text : Bytes) :
    ∀ c ∈ (text.dropWhile isDigit).head?, isDigit c = false := by
  intro c hc
  have := List.head?_dropWhile_not isDigit text
  rw [hc] at this
  exact this

/-- A text that starts with a number, and what follows it. -/
theorem exists_digitRun {text : Bytes} (h : text.takeWhile isDigit ≠ []) :
    ∃ ds rest, text = ds ++ rest ∧ DigitRun ds (decimalValue ds) ∧
      ∀ c ∈ rest.head?, isDigit c = false :=
  ⟨text.takeWhile isDigit, text.dropWhile isDigit, List.takeWhile_append_dropWhile.symm,
    ⟨h, fun _ hc => List.mem_takeWhile_imp hc, rfl⟩, not_isDigit_of_dropWhile text⟩

/-- A number at the front of a text goes on as long as there are digits, and gets no smaller. -/
theorem exists_longer_digitRun {ds : Bytes} (hds : DigitRun ds value) (rest : Bytes) :
    ∃ ds' rest', ds ++ rest = ds' ++ rest' ∧ DigitRun ds' (decimalValue ds') ∧
      value ≤ decimalValue ds' ∧ ∀ c ∈ rest'.head?, isDigit c = false := by
  refine ⟨ds ++ rest.takeWhile isDigit, rest.dropWhile isDigit, ?_, ⟨?_, ?_, rfl⟩, ?_,
    not_isDigit_of_dropWhile rest⟩
  · rw [List.append_assoc, List.takeWhile_append_dropWhile]
  · exact fun hnil => hds.1 (List.append_eq_nil_iff.mp hnil).1
  · intro c hc
    exact (List.mem_append.mp hc).elim (hds.2.1 c) fun hmem => List.mem_takeWhile_imp hmem
  · rw [← hds.2.2]
    exact le_decimalValue_append _ _

/-! ### Outcomes -/

theorem parseSegChecked_eq {gen : ℕ} {rest es tail : Bytes} {seg : ℕ} (hes : DigitRun es seg)
    (htail : ∀ c ∈ tail.head?, isDigit c = false) (hrest : rest = bytes ".seg" ++ (es ++ tail)) :
    parseSegChecked gen rest = (stoull es).bind fun seg =>
      if tail ≠ bytes ".csv" then .ok none else .ok (some (gen, seg)) := by
  obtain ⟨htake, hdrop⟩ := takeWhile_digits hes.2.1 htail
  rw [parseSegChecked, afterMarker_eq_some.mpr hrest]
  dsimp only
  rw [htake, hdrop, if_neg hes.1]
  rfl

theorem parseGenSegChecked_eq {name basename ds rest : Bytes} {gen : ℕ} (hds : DigitRun ds gen)
    (hrest : ∀ c ∈ rest.head?, isDigit c = false)
    (hname : name = basename ++ bytes ".gen" ++ (ds ++ rest)) :
    parseGenSegChecked name basename = (stoull ds).bind fun gen => parseSegChecked gen rest := by
  obtain ⟨htake, hdrop⟩ := takeWhile_digits hds.2.1 hrest
  rw [parseGenSegChecked, afterMarker_eq_some.mpr hname]
  dsimp only
  rw [htake, hdrop, if_neg hds.1]
  rfl

/-- Without a first number the name is passed over. -/
theorem parseGenSegChecked_cases (name basename : Bytes) :
    parseGenSegChecked name basename = .ok none ∨ ∃ ds rest,
      name = basename ++ bytes ".gen" ++ (ds ++ rest) ∧ DigitRun ds (decimalValue ds) ∧
      (∀ c ∈ rest.head?, isDigit c = false) ∧
      parseGenSegChecked name basename = (stoull ds).bind fun gen => parseSegChecked gen rest := by
  rcases hmarker : afterMarker (basename ++ bytes ".gen") name with _ | text
  · exact .inl (by rw [parseGenSegChecked, hmarker])
  · by_cases hdigits : text.takeWhile isDigit = []
    · refine .inl ?_
      rw [parseGenSegChecked, hmarker]
      exact if_pos hdigits
    · obtain ⟨ds, rest, rfl, hds, hrest⟩ := exists_digitRun hdigits
      have hname := afterMarker_eq_some.mp hmarker
      exact .inr ⟨ds, rest, hname, hds, hrest, parseGenSegChecked_eq hds hrest hname⟩

/-- Without a second number too. -/
theorem parseSegChecked_cases (gen : ℕ) (rest : Bytes) :
    parseSegChecked gen rest = .ok none ∨ ∃ es tail,
      rest = bytes ".seg" ++ (es ++ tail) ∧ DigitRun es (decimalValue es) ∧
      parseSegChecked gen rest = (stoull es).bind fun seg =>
        if tail ≠ bytes ".csv" then .ok none else .ok (some (gen, seg)) := by
  rcases hmarker : afterMarker (bytes ".seg") rest with _ | text
  · exact .inl (by rw [parseSegChecked, hmarker])
  · by_cases hdigits : text.takeWhile isDigit = []
    · refine .inl ?_
      rw [parseSegChecked, hmarker]
      exact if_pos hdigits
    · obtain ⟨es, tail, rfl, hes, htail⟩ := exists_digitRun hdigits
      have hrest := afterMarker_eq_some.mp hmarker
      exact .inr ⟨es, tail, hrest, hes, parseSegChecked_eq hes htail hrest⟩

/-- What comes out is the pair of the numbers of a segment's name. -/
theorem parseGenSegChecked_ok_some_iff (name basename : Bytes) (gen seg : ℕ) :
    parseGenSegChecked name basename = .ok (some (gen, seg)) ↔
      SegmentFileName name basename gen seg := by
  constructor
  · intro h
    obtain hnone | ⟨ds, rest, hname, hds, hrest, heq⟩ := parseGenSegChecked_cases name basename
    · rw [hnone] at h
      cases h
    · rw [heq] at h
      rcases hgen : stoull ds with e | gen'
      · rw [hgen] at h
        cases h
      · rw [hgen] at h
        change parseSegChecked gen' rest = _ at h
        obtain hnone | ⟨es, tail, hsplit, hes, heq'⟩ := parseSegChecked_cases gen' rest
        · rw [hnone] at h
          cases h
        · rw [heq'] at h
          rcases hseg : stoull es with e | seg'
          · rw [hseg] at h
            cases h
          · rw [hseg] at h
            change (if tail ≠ bytes ".csv" then _ else _) = _ at h
            split_ifs at h with htail
            · cases h
            · obtain ⟨rfl, rfl⟩ := Prod.mk.inj (Option.some.inj (Except.ok.inj h))
              obtain ⟨hgenvalue, hgenlt⟩ := stoull_eq_ok.mp hgen
              obtain ⟨hsegvalue, hseglt⟩ := stoull_eq_ok.mp hseg
              refine ⟨hgenlt, hseglt, ds, es, hgenvalue ▸ hds, hsegvalue ▸ hes, ?_⟩
              rw [hname, hsplit, not_not.mp htail]
              simp only [List.append_assoc]
  · rintro ⟨hgen, hseg, ds, es, hds, hes, hname⟩
    have hrest : ∀ c ∈ (bytes ".seg" ++ (es ++ bytes ".csv")).head?, isDigit c = false := by
      rintro c ⟨⟩
      rfl
    have hcsv : ∀ c ∈ (bytes ".csv").head?, isDigit c = false := by
      rintro c ⟨⟩
      rfl
    have hsplit : name = basename ++ bytes ".gen" ++
        (ds ++ (bytes ".seg" ++ (es ++ bytes ".csv"))) := by
      rw [hname]
      simp only [List.append_assoc]
    have hstoull := stoull_eq_ok.mpr ⟨hes.2.2, hseg⟩
    rw [parseGenSegChecked_eq hds hrest hsplit, stoull_eq_ok.mpr ⟨hds.2.2, hgen⟩, Except.bind,
      parseSegChecked_eq hes hcsv rfl, hstoull, Except.bind]
    exact if_neg (not_not.mpr rfl)

/-- It throws on the overlong names. -/
theorem parseGenSegChecked_error_iff (name basename : Bytes) :
    (∃ e, parseGenSegChecked name basename = .error e) ↔ Overlong name basename := by
  constructor
  · rintro ⟨e, h⟩
    obtain hnone | ⟨ds, rest, hname, hds, hrest, heq⟩ := parseGenSegChecked_cases name basename
    · rw [hnone] at h
      cases h
    · rcases hgen : stoull ds with e' | gen
      · refine .inl ⟨ds, _, rest, hds, stoull_eq_error.mp hgen, ?_⟩
        rw [hname]
        simp only [List.append_assoc]
      · rw [heq, hgen, Except.bind] at h
        obtain hnone | ⟨es, tail, hsplit, hes, heq'⟩ := parseSegChecked_cases gen rest
        · rw [hnone] at h
          cases h
        · rcases hseg : stoull es with e' | seg
          · refine .inr ⟨ds, _, es, _, tail, hds, hes, stoull_eq_error.mp hseg, ?_⟩
            rw [hname, hsplit]
            simp only [List.append_assoc]
          · rw [heq', hseg, Except.bind] at h
            split_ifs at h
  · rintro (⟨ds, gen, rest, hds, hlong, hname⟩ | ⟨ds, gen, es, seg, rest, hds, hes, hlong, hname⟩)
    · obtain ⟨ds', rest', hsplit, hds', hle, hrest'⟩ := exists_longer_digitRun hds rest
      have hstoull : stoull ds' = .error .mk := stoull_eq_error.mpr (hlong.trans hle)
      rw [List.append_assoc, hsplit] at hname
      exact ⟨.mk, by rw [parseGenSegChecked_eq hds' hrest' hname, hstoull, Except.bind]⟩
    · obtain ⟨es', rest', hsplit, hes', hle, hrest'⟩ := exists_longer_digitRun hes rest
      have hstoull : stoull es' = .error .mk := stoull_eq_error.mpr (hlong.trans hle)
      have hhead : ∀ c ∈ (bytes ".seg" ++ (es' ++ rest')).head?, isDigit c = false := by
        rintro c ⟨⟩
        rfl
      have hname' : name = basename ++ bytes ".gen" ++
          (ds ++ (bytes ".seg" ++ (es' ++ rest'))) := by
        rw [hname, ← hsplit]
        simp only [List.append_assoc]
      rw [parseGenSegChecked_eq hds hhead hname']
      rcases stoull ds with e | gen'
      · exact ⟨e, rfl⟩
      · exact ⟨.mk, by rw [Except.bind, parseSegChecked_eq hes' hrest' rfl, hstoull, Except.bind]⟩

/-- Where nothing is thrown, the name is read as if its numbers could be of any length. -/
theorem parseGenSeg_of_ok {name basename : Bytes} {result : Option (ℕ × ℕ)}
    (h : parseGenSegChecked name basename = .ok result) : parseGenSeg name basename = result := by
  rw [parseGenSegChecked] at h
  rw [parseGenSeg]
  rcases hmarker : afterMarker (basename ++ bytes ".gen") name with _ | text
  · rw [hmarker] at h
    exact Except.ok.inj h
  · rw [hmarker] at h
    dsimp only at h
    simp only [Option.bind_eq_bind, Option.bind_some, readDecimal]
    split_ifs at h ⊢ with hdigits
    · exact Except.ok.inj h
    · rcases hgen : stoull (text.takeWhile isDigit) with e | gen
      · rw [hgen] at h
        cases h
      · obtain ⟨rfl, _⟩ := stoull_eq_ok.mp hgen
        rw [hgen] at h
        change parseSegChecked _ _ = _ at h
        rw [parseSegChecked] at h
        simp only [Option.bind_some]
        rcases hmarker' : afterMarker (bytes ".seg") (text.dropWhile isDigit) with _ | rest
        · rw [hmarker'] at h
          exact Except.ok.inj h
        · rw [hmarker'] at h
          dsimp only at h
          simp only [Option.bind_some]
          by_cases hdigits' : rest.takeWhile isDigit = []
          · rw [if_pos hdigits'] at h
            rw [if_pos hdigits']
            exact Except.ok.inj h
          · rw [if_neg hdigits'] at h
            rw [if_neg hdigits', Option.bind_some]
            rcases hseg : stoull (rest.takeWhile isDigit) with e | seg
            · rw [hseg] at h
              cases h
            · obtain ⟨rfl, _⟩ := stoull_eq_ok.mp hseg
              rw [hseg] at h
              change (if rest.dropWhile isDigit ≠ bytes ".csv" then _ else _) = _ at h
              by_cases hcsv : rest.dropWhile isDigit = bytes ".csv"
              · rw [if_neg (not_not.mpr hcsv)] at h
                rw [if_pos hcsv]
                exact Except.ok.inj h
              · rw [if_pos hcsv] at h
                rw [if_neg hcsv]
                exact Except.ok.inj h

/-! ### The folder -/

theorem mapM_eq_ok {α β : Type} {f : α → Except OutOfRange β} {l : List α} {bs : List β} :
    l.mapM f = .ok bs ↔ l.map f = bs.map .ok := by
  induction l generalizing bs with
  | nil => cases bs <;> simp [pure, Except.pure]
  | cons a l ih =>
    rw [List.mapM_cons, List.map_cons]
    rcases ha : f a with e | b
    · refine iff_of_false (by rintro ⟨⟩) fun h => ?_
      cases bs <;> simp at h
    · rcases hl : l.mapM f with e | bs'
      · refine iff_of_false (by rintro ⟨⟩) fun h => ?_
        rcases bs with _ | ⟨b', bs'⟩
        · simp at h
        · have := ih.mpr (List.cons.inj h).2
          rw [hl] at this
          cases this
      · have hmap := ih.mp hl
        rw [hmap, ← List.map_cons]
        constructor
        · intro h
          rw [Except.ok.inj h]
        · intro h
          exact congrArg _ (List.map_injective_iff.mpr (fun _ _ => Except.ok.inj) h)

theorem segmentFile_eq_ok {channel : ℤ} {f : Bytes × Bytes}
    {file : Option ((ℕ × ℕ) × Bytes × Bytes)} :
    segmentFile channel f = .ok file ↔ ¬ Overlong f.1 (channelStem channel) ∧
      file = (parseGenSeg f.1 (channelStem channel)).map fun gs => (gs, f) := by
  rw [segmentFile, ← parseGenSegChecked_error_iff]
  rcases hparse : parseGenSegChecked f.1 (channelStem channel) with e | result
  · exact iff_of_false (by rintro ⟨⟩) fun h => h.1 ⟨e, rfl⟩
  · rw [parseGenSeg_of_ok hparse]
    constructor
    · intro h
      refine ⟨?_, (Except.ok.inj h).symm⟩
      rintro ⟨e, ⟨⟩⟩
    · rintro ⟨_, rfl⟩
      rfl

theorem readChannelLogChecked_ok_iff {D F H : Type} (nums : LogNumbers D F)
    (parseHeader : Bytes → Option H) (entries : List (Bytes × Bytes)) (channel : ℤ)
    (log : ChannelLog D F H) :
    readChannelLogChecked nums parseHeader entries channel = .ok log ↔
      (∀ f ∈ entries, ¬ Overlong f.1 (channelStem channel)) ∧
        log = readChannelLog nums parseHeader entries channel := by
  have hturns : (∀ f ∈ entries, ¬ Overlong f.1 (channelStem channel)) →
      entries.map (segmentFile channel) = (entries.map fun f =>
        (parseGenSeg f.1 (channelStem channel)).map fun gs => (gs, f)).map Except.ok := by
    intro hnone
    rw [List.map_map]
    exact List.map_congr_left fun f hf => segmentFile_eq_ok.mpr ⟨hnone f hf, rfl⟩
  have hfiles : ∀ files, entries.mapM (segmentFile channel) = .ok files ↔
      (∀ f ∈ entries, ¬ Overlong f.1 (channelStem channel)) ∧ files = entries.map fun f =>
        (parseGenSeg f.1 (channelStem channel)).map fun gs => (gs, f) := by
    intro files
    rw [mapM_eq_ok]
    constructor
    · intro h
      have hnone : ∀ f ∈ entries, ¬ Overlong f.1 (channelStem channel) := by
        intro f hf
        have hmem : segmentFile channel f ∈ files.map Except.ok := h ▸ List.mem_map_of_mem hf
        obtain ⟨file, _, hfile⟩ := List.mem_map.mp hmem
        exact (segmentFile_eq_ok.mp hfile.symm).1
      refine ⟨hnone, List.map_injective_iff.mpr (fun _ _ => Except.ok.inj) (h.symm.trans ?_)⟩
      exact hturns hnone
    · rintro ⟨hnone, rfl⟩
      exact hturns hnone
  rw [readChannelLogChecked]
  rcases hmapM : entries.mapM (segmentFile channel) with e | files
  · refine iff_of_false (by rintro ⟨⟩) fun h => ?_
    have := (hfiles _).mpr ⟨h.1, rfl⟩
    rw [hmapM] at this
    cases this
  · obtain ⟨hnone, rfl⟩ := (hfiles files).mp hmapM
    have hreduce : (entries.map fun f => (parseGenSeg f.1 (channelStem channel)).map
        fun gs => (gs, f)).reduceOption = entries.filterMap fun f =>
          (parseGenSeg f.1 (channelStem channel)).map fun gs => (gs, f) := by
      change List.filterMap id (entries.map _) = _
      rw [List.filterMap_map]
      rfl
    rw [readChannelLog, channelFiles, ← hreduce]
    exact ⟨fun h => ⟨hnone, (Except.ok.inj h).symm⟩, fun h => congrArg Except.ok h.2.symm⟩

/-- **Headline.** A name is read as it should be exactly when it is not overlong, and the folder is
read to the end exactly when none of the names in it is. -/
theorem parseGenSegChecked_meets_iff (name basename : Bytes) {D F H : Type}
    (nums : LogNumbers D F) (parseHeader : Bytes → Option H) (entries : List (Bytes × Bytes))
    (channel : ℤ) :
    ((∃ result, parseGenSegChecked name basename = .ok result ∧
        ∀ gen seg, result = some (gen, seg) ↔ SegmentFileName name basename gen seg) ↔
      ¬ Overlong name basename) ∧
    ((∃ log, readChannelLogChecked nums parseHeader entries channel = .ok log) ↔
        ∀ f ∈ entries, ¬ Overlong f.1 (channelStem channel)) := by
  constructor
  · rw [← parseGenSegChecked_error_iff]
    constructor
    · rintro ⟨result, hok, _⟩ ⟨e, herror⟩
      rw [hok] at herror
      cases herror
    · intro herror
      rcases hresult : parseGenSegChecked name basename with e | result
      · exact absurd ⟨e, hresult⟩ herror
      · refine ⟨result, rfl, fun gen seg => ?_⟩
        rw [← parseGenSegChecked_ok_some_iff, hresult]
        exact ⟨fun h => by rw [h], fun h => Except.ok.inj h⟩
  · constructor
    · rintro ⟨log, hlog⟩
      exact ((readChannelLogChecked_ok_iff nums parseHeader entries channel log).mp hlog).1
    · intro h
      exact ⟨_, (readChannelLogChecked_ok_iff nums parseHeader entries channel _).mpr ⟨h, rfl⟩⟩

/-- A generation of `2 ^ 64` ends the reading of a name, and of a folder with such a file. -/
theorem parseGenSegChecked_twoPow64 :
    parseGenSegChecked (bytes "ch0.gen18446744073709551616.seg0.csv") (bytes "ch0") = .error .mk ∧
    ¬ (∀ name basename, ∃ result, parseGenSegChecked name basename = .ok result) ∧
    ∀ (nums : LogNumbers ℚ ℚ) (parseHeader : Bytes → Option Unit),
      readChannelLogChecked nums parseHeader
        [(bytes "ch0.gen18446744073709551616.seg0.csv", [])] 0 = .error .mk := by
  have herror : parseGenSegChecked (bytes "ch0.gen18446744073709551616.seg0.csv") (bytes "ch0") =
      .error .mk := by
    decide +kernel
  refine ⟨herror, fun hall => ?_, fun nums parseHeader => ?_⟩
  · obtain ⟨result, hok⟩ := hall (bytes "ch0.gen18446744073709551616.seg0.csv") (bytes "ch0")
    rw [herror] at hok
    cases hok
  · have hstem : channelStem 0 = bytes "ch0" := by decide +kernel
    rw [readChannelLogChecked, List.mapM_cons, segmentFile, hstem, herror]
    rfl

end RtaTool
