import RtaTool.Lib.Json

/-!
# Texts of JSON values

What it takes for a text to be read as a given JSON value. The texts of values are put together from
those of their parts: a list from its items' texts with commas between them, a member from a quoted
key, a colon and a value's text. Being encoded in UTF-8 and having no key twice in one object go
with it.

## Main definitions

* `separated` -- texts with commas between them
* `Encodes` -- what is written between the quotes for some bytes
* `JsonText`, `MemberText`, `FieldsText` -- a text of a value, of a member, of the members of an
  object

## Main results

* `JsonText.number`, `JsonText.string`, `JsonText.array`, `FieldsText.object` -- the texts of the
  parts make the text of the whole
* `JsonText.readJson_eq` -- a text of a value is a document that is read as the value
-/

namespace RtaTool

/-! ### Texts of values -/

/-- Texts with commas between them. -/
def separated : List (List UInt8) → List UInt8
  | [] => []
  | [t] => t
  | t :: u :: ts => t ++ 44 :: separated (u :: ts)

variable {ts : List (List UInt8)}

theorem separated_cons (t : List UInt8) (h : ts ≠ []) :
    separated (t :: ts) = t ++ 44 :: separated ts := by
  cases ts with
  | nil => exact absurd rfl h
  | cons u ts => rfl

theorem separated_append {ts us : List (List UInt8)} (ht : ts ≠ []) (hu : us ≠ []) :
    separated (ts ++ us) = separated ts ++ 44 :: separated us := by
  induction ts with
  | nil => exact absurd rfl ht
  | cons t ts ih =>
    by_cases hts : ts = []
    · subst hts
      exact separated_cons t hu
    · rw [List.cons_append, separated_cons t (by simp [hts]), ih hts, separated_cons t hts,
        List.append_assoc, List.cons_append]

/-- An item is read off the front of its text. -/
def Reads {α : Type} (item : List UInt8 → Option (α × List UInt8)) (t : List UInt8) (v : α) :
    Prop :=
  ∀ rest, Stops rest → item (t ++ rest) = some (v, rest)

/-- A text does not begin with a blank or with a bracket that closes. -/
def Opens (t : List UInt8) : Prop :=
  ∃ c s, t = c :: s ∧ isWhite c = false ∧ c ≠ 93 ∧ c ≠ 125

theorem skipWhite_of_head {c : UInt8} (s : List UInt8) (h : isWhite c = false) :
    skipWhite (c :: s) = c :: s := by
  rw [skipWhite, List.dropWhile_cons, h]
  rfl

theorem readItems_separated {α : Type} {item : List UInt8 → Option (α × List UInt8)}
    {close : UInt8} (hclose : close = 93 ∨ close = 125) {vs : List α}
    (hread : List.Forall₂ (Reads item) ts vs) (hne : ts ≠ []) {n : ℕ} (hn : ts.length ≤ n)
    (rest : List UInt8) :
    readItems item close n (separated ts ++ close :: rest) = some (vs, rest) := by
  have hstops : ∀ s, Stops (close :: s) := by
    intro s c hc
    obtain rfl := Option.some.inj hc
    rcases hclose with h | h
    · exact .inr (.inl h)
    · exact .inr (.inr h)
  have hwhite : isWhite close = false := by
    rcases hclose with rfl | rfl
    · rfl
    · rfl
  have hcomma : close ≠ 44 := by
    rcases hclose with rfl | rfl
    · decide
    · decide
  induction hread generalizing n with
  | nil => exact absurd rfl hne
  | @cons t v ts vs hitem hread ih =>
    obtain ⟨n, rfl⟩ : ∃ m, n = m + 1 := ⟨n - 1, by rw [List.length_cons] at hn; omega⟩
    by_cases hts : ts = []
    · subst hts
      obtain rfl := List.forall₂_nil_left_iff.mp hread
      rw [separated, readItems, hitem _ (hstops rest), Option.bind_some]
      dsimp only
      rw [skipWhite_of_head _ hwhite]
      dsimp only
      rw [if_neg hcomma, if_pos rfl]
    · have hnext : Stops (44 :: (separated ts ++ close :: rest)) := by
        intro c hc
        exact .inl (Option.some.inj hc).symm
      rw [separated_cons t hts, List.append_assoc, List.cons_append, readItems, hitem _ hnext,
        Option.bind_some]
      dsimp only
      rw [skipWhite_of_head _ (by rfl)]
      dsimp only
      rw [if_pos rfl, ih hts (by rw [List.length_cons] at hn; omega)]
      rfl

theorem readList_separated {α : Type} {item : List UInt8 → Option (α × List UInt8)}
    {close : UInt8} (hclose : close = 93 ∨ close = 125) {vs : List α}
    (hread : List.Forall₂ (Reads item) ts vs) (hopens : ∀ t ∈ ts, Opens t) {n : ℕ}
    (hn : ts.length ≤ n) (rest : List UInt8) :
    readList item close n (separated ts ++ close :: rest) = some (vs, rest) := by
  cases hread with
  | nil =>
    have hwhite : isWhite close = false := by
      rcases hclose with rfl | rfl
      · rfl
      · rfl
    rw [separated, List.nil_append, readList, skipWhite_of_head _ hwhite]
    exact if_pos rfl
  | @cons t v ts vs hitem hread =>
    obtain ⟨c, s, hts, hwhite, hsquare, hbrace⟩ := hopens t List.mem_cons_self
    obtain ⟨s', hs'⟩ : ∃ s', separated (t :: ts) ++ close :: rest = c :: s' := by
      by_cases hnil : ts = []
      · subst hnil
        exact ⟨s ++ close :: rest, by rw [separated, hts, List.cons_append]⟩
      · refine ⟨s ++ 44 :: separated ts ++ close :: rest, ?_⟩
        rw [separated_cons t hnil, hts]
        rfl
    have hitems := readItems_separated hclose (.cons hitem hread) (List.cons_ne_nil t ts) hn rest
    have hc : c ≠ close := by
      rcases hclose with rfl | rfl
      · exact hsquare
      · exact hbrace
    rw [readList, hs', skipWhite_of_head _ hwhite]
    dsimp only
    rw [if_neg hc, ← hs', hitems]

/-! ### Strings -/

/-- What is written between the quotes for some bytes. -/
def Encodes (enc s : List UInt8) : Prop :=
  ∀ tail r, readChars tail = some r → readChars (enc ++ tail) = some (s ++ r.1, r.2)

namespace Encodes

theorem nil : Encodes [] [] := fun _ _ h => h

theorem append {enc enc' s s' : List UInt8} (h : Encodes enc s) (h' : Encodes enc' s') :
    Encodes (enc ++ enc') (s ++ s') := by
  intro tail r hr
  rw [List.append_assoc, h _ _ (h' tail r hr), List.append_assoc]

theorem flatMap {α : Type*} {f g : α → List UInt8} {xs : List α}
    (h : ∀ x ∈ xs, Encodes (f x) (g x)) : Encodes (xs.flatMap f) (xs.flatMap g) := by
  induction xs with
  | nil => exact nil
  | cons x xs ih =>
    obtain ⟨hx, hxs⟩ := List.forall_mem_cons.mp h
    exact hx.append (ih hxs)

/-- A byte that is neither a control nor a quote nor a backslash stands for itself. -/
theorem plain {c : UInt8} (hcontrol : ¬ c < 32) (hquote : c ≠ 34) (hslash : c ≠ 92) :
    Encodes [c] [c] := by
  intro tail r hr
  rw [List.singleton_append, readChars.eq_def]
  dsimp only
  rw [if_neg hquote, if_neg hslash, if_neg hcontrol, hr]
  rfl

theorem short {e b : UInt8} (he : e ≠ 117) (hb : unescaped e = some b) :
    Encodes [92, e] [b] := by
  intro tail r hr
  change readChars (92 :: e :: tail) = _
  rw [readChars.eq_def]
  dsimp only
  rw [if_neg (by decide), if_pos rfl, if_neg he, hb, Option.bind_some, hr]
  rfl

theorem hex {a b c d : UInt8} {char : List UInt8} (h : hexChar a b c d = some char) :
    Encodes [92, 117, a, b, c, d] char := by
  intro tail r hr
  change readChars (92 :: 117 :: a :: b :: c :: d :: tail) = _
  rw [readChars.eq_def]
  dsimp only
  rw [if_neg (by decide), if_pos rfl, if_pos rfl, h, Option.bind_some, hr]
  rfl

/-- The quote that ends the string. -/
theorem readChars_eq {enc s : List UInt8} (h : Encodes enc s) (rest : List UInt8) :
    readChars (enc ++ 34 :: rest) = some (s, rest) := by
  have hquote : readChars (34 :: rest) = some ([], rest) := by
    rw [readChars.eq_def]
    exact if_pos rfl
  have hread := h _ _ hquote
  rw [List.append_nil] at hread
  exact hread

end Encodes

/-! ### Documents -/

/-- A text of a value: it is read as the value, it is in UTF-8, and no object of the value has a
key twice. -/
structure JsonText (s : List UInt8) (v : Json) : Prop where
  reads : ∀ n, s.length < n → Reads (readValue n) s v
  opens : Opens s
  utf8 : IsUtf8 s
  distinct : v.DistinctKeys

/-- A text of a member of an object. -/
structure MemberText (s : List UInt8) (m : List UInt8 × Json) : Prop where
  reads : ∀ n, s.length < n → Reads (readMember (readValue n)) s m
  opens : Opens s
  utf8 : IsUtf8 s
  distinct : m.2.DistinctKeys

theorem opens_cons {c : UInt8} (s : List UInt8) (hwhite : isWhite c = false) (hsquare : c ≠ 93)
    (hbrace : c ≠ 125) : Opens (c :: s) :=
  ⟨c, s, rfl, hwhite, hsquare, hbrace⟩

theorem Opens.length_pos {s : List UInt8} (h : Opens s) : 0 < s.length := by
  obtain ⟨c, t, rfl, -⟩ := h
  exact Nat.succ_pos _

theorem length_le_separated {t : List UInt8} (ht : t ∈ ts) :
    t.length ≤ (separated ts).length := by
  induction ts with
  | nil => exact absurd ht List.not_mem_nil
  | cons u ts ih =>
    by_cases hts : ts = []
    · subst hts
      rw [List.mem_singleton.mp ht, separated]
    · rw [separated_cons u hts, List.length_append, List.length_cons]
      rcases List.mem_cons.mp ht with rfl | ht
      · omega
      · have hle := ih ht
        omega

theorem length_texts_le (h : ∀ t ∈ ts, Opens t) :
    ts.length ≤ (separated ts).length := by
  induction ts with
  | nil => exact Nat.zero_le _
  | cons u ts ih =>
    obtain ⟨hu, hopens⟩ := List.forall_mem_cons.mp h
    have hpos := hu.length_pos
    by_cases hts : ts = []
    · subst hts
      rw [separated, List.length_singleton]
      exact hpos
    · have hle := ih hopens
      rw [separated_cons u hts, List.length_append, List.length_cons, List.length_cons]
      omega

theorem IsUtf8.separated (h : ∀ t ∈ ts, IsUtf8 t) :
    IsUtf8 (separated ts) := by
  induction ts with
  | nil => exact .nil
  | cons u ts ih =>
    obtain ⟨hu, hts⟩ := List.forall_mem_cons.mp h
    by_cases hnil : ts = []
    · subst hnil
      exact hu
    · rw [separated_cons u hnil]
      exact hu.append (.cons (by decide) (ih hts))

/-- A value whose first byte is no blank is read where it stands. -/
theorem readValue_cons {c : UInt8} (hc : isWhite c = false) (n : ℕ) (s : List UInt8) :
    readValue (n + 1) (c :: s) =
      if c = 110 then readWord [117, 108, 108] .null s
      else if c = 116 then readWord [114, 117, 101] (.bool true) s
      else if c = 102 then readWord [97, 108, 115, 101] (.bool false) s
      else if c = 34 then (readChars s).map fun r => (.string r.1, r.2)
      else if c = 91 then (readList (readValue n) 93 n s).map fun r => (.array r.1, r.2)
      else if c = 123 then
        (readList (readMember (readValue n)) 125 n s).map fun r => (.object r.1, r.2)
      else (readNumber (c :: s)).map fun r => (.number r.1, r.2) := by
  rw [readValue, skipWhite_of_head _ hc]

theorem readJson_of_reads {s : List UInt8} {v : Json}
    (h : Reads (readValue (s.length + 1)) s v) : readJson s = some v := by
  have hread := h [] .nil
  rw [List.append_nil] at hread
  rw [readJson, hread]
  rfl

/-- Between its quotes a string is read, whatever bytes it has. -/
theorem Encodes.reads {enc s : List UInt8} (h : Encodes enc s) {n : ℕ}
    (hn : (34 :: enc ++ [34]).length < n) : Reads (readValue n) (34 :: enc ++ [34]) (.string s) := by
  intro rest _
  obtain ⟨n, rfl⟩ : ∃ m, n = m + 1 := ⟨n - 1, by omega⟩
  rw [List.cons_append, List.cons_append, List.append_assoc, List.singleton_append,
    readValue_cons (by rfl), if_neg (by decide), if_neg (by decide), if_neg (by decide),
    if_pos rfl, h.readChars_eq]
  rfl

namespace JsonText

theorem readJson_eq {s : List UInt8} {v : Json} (h : JsonText s v) : readJson s = some v :=
  readJson_of_reads (h.reads _ (Nat.lt_succ_self _))

theorem null : JsonText [110, 117, 108, 108] .null where
  reads n hn rest _ := by
    obtain ⟨n, rfl⟩ : ∃ m, n = m + 1 := ⟨n - 1, by omega⟩
    rfl
  opens := opens_cons _ rfl (by decide) (by decide)
  utf8 := .of_ascii (by simp)
  distinct := .null

theorem bool (b : Bool) :
    JsonText (if b then [116, 114, 117, 101] else [102, 97, 108, 115, 101]) (.bool b) := by
  cases b with
  | true =>
    refine ⟨?_, opens_cons _ rfl (by decide) (by decide), .of_ascii (by simp), .bool true⟩
    intro n hn rest _
    obtain ⟨n, rfl⟩ : ∃ m, n = m + 1 := ⟨n - 1, by omega⟩
    rfl
  | false =>
    refine ⟨?_, opens_cons _ rfl (by decide) (by decide), .of_ascii (by simp), .bool false⟩
    intro n hn rest _
    obtain ⟨n, rfl⟩ : ∃ m, n = m + 1 := ⟨n - 1, by omega⟩
    rfl

theorem number {f : NumberForm} (h : f.Valid) : JsonText f.text (.number f.text) := by
  obtain ⟨c, t, hct⟩ := List.exists_cons_of_ne_nil (NumberForm.text_ne_nil h)
  have hmem : isDigit c = true ∨ c = 43 ∨ c = 45 ∨ c = 46 ∨ c = 101 :=
    NumberForm.mem_text h (by simp [hct])
  -- what a number begins with is not what another value begins with
  have hother : ∀ d : UInt8, ¬ (isDigit d = true ∨ d = 43 ∨ d = 45 ∨ d = 46 ∨ d = 101) → c ≠ d := by
    rintro d hd rfl
    exact hd hmem
  have hwhite : isWhite c = false := by
    rw [Bool.eq_false_iff]
    intro hc
    simp only [isWhite, Bool.or_eq_true, decide_eq_true_iff] at hc
    rcases hc with ((hc | hc) | hc) | hc
    · exact hother 32 (by decide) hc
    · exact hother 9 (by decide) hc
    · exact hother 10 (by decide) hc
    · exact hother 13 (by decide) hc
  refine ⟨?_, ⟨c, t, hct, hwhite, hother 93 (by decide), hother 125 (by decide)⟩, ?_, .number _⟩
  · intro n hlen rest hrest
    obtain ⟨n, rfl⟩ : ∃ m, n = m + 1 := ⟨n - 1, by omega⟩
    have hread := NumberForm.readNumber_append h hrest
    rw [hct, List.cons_append] at hread ⊢
    rw [readValue_cons hwhite, if_neg (hother 110 (by decide)), if_neg (hother 116 (by decide)),
      if_neg (hother 102 (by decide)), if_neg (hother 34 (by decide)),
      if_neg (hother 91 (by decide)), if_neg (hother 123 (by decide)), hread, Option.map_some]
  · apply IsUtf8.of_ascii
    intro c hc
    rcases NumberForm.mem_text h hc with hd | rfl | rfl | rfl | rfl
    · rw [isDigit, Bool.and_eq_true, decide_eq_true_iff, decide_eq_true_iff] at hd
      rw [UInt8.lt_iff_toNat_lt]
      have hle := UInt8.le_iff_toNat_le.mp hd.2
      have h57 : (57 : UInt8).toNat = 57 := rfl
      have h128 : (128 : UInt8).toNat = 128 := rfl
      omega
    · decide
    · decide
    · decide
    · decide

theorem natural (n : ℕ) : JsonText (decimal n) (.number (decimal n)) := by
  rw [← NumberForm.text_ofNat]
  exact number (NumberForm.valid_ofNat n)

theorem integer (i : ℤ) : JsonText (decimalInt i) (.number (decimalInt i)) := by
  rw [← NumberForm.text_ofInt]
  exact number (NumberForm.valid_ofInt i)

theorem string {enc s : List UInt8} (h : Encodes enc s) (hutf8 : IsUtf8 enc) :
    JsonText (34 :: enc ++ [34]) (.string s) where
  reads _ hn := h.reads hn
  opens := opens_cons _ rfl (by decide) (by decide)
  utf8 := (hutf8.cons (by decide)).append (.ascii (by decide))
  distinct := .string s

/-- Items in square brackets. -/
theorem array {α : Type*} {f : α → List UInt8} {g : α → Json} {xs : List α}
    (h : ∀ x ∈ xs, JsonText (f x) (g x)) :
    JsonText (91 :: separated (xs.map f) ++ [93]) (.array (xs.map g)) := by
  have hopens : ∀ t ∈ xs.map f, Opens t := by
    intro t ht
    obtain ⟨x, hx, rfl⟩ := List.mem_map.mp ht
    exact (h x hx).opens
  have hutf8 : ∀ t ∈ xs.map f, IsUtf8 t := by
    intro t ht
    obtain ⟨x, hx, rfl⟩ := List.mem_map.mp ht
    exact (h x hx).utf8
  refine ⟨?_, opens_cons _ rfl (by decide) (by decide), ?_, ?_⟩
  · intro n hn rest _
    obtain ⟨n, rfl⟩ : ∃ m, n = m + 1 := ⟨n - 1, by omega⟩
    rw [List.cons_append, List.length_cons, List.length_append, List.length_singleton] at hn
    have hreads : List.Forall₂ (Reads (readValue n)) (xs.map f) (xs.map g) := by
      rw [List.forall₂_map_left_iff, List.forall₂_map_right_iff, List.forall₂_same]
      intro x hx
      have hle := length_le_separated (List.mem_map_of_mem (f := f) hx)
      exact (h x hx).reads n (by omega)
    have hcount := length_texts_le hopens
    rw [List.cons_append, List.cons_append, List.append_assoc, List.singleton_append,
      readValue_cons (by rfl), if_neg (by decide), if_neg (by decide), if_neg (by decide),
      if_neg (by decide), if_pos rfl, readList_separated (.inl rfl) hreads hopens (by omega)]
    rfl
  · exact ((IsUtf8.separated hutf8).cons (by decide)).append (.ascii (by decide))
  · apply Json.DistinctKeys.array
    intro v hv
    obtain ⟨x, hx, rfl⟩ := List.mem_map.mp hv
    exact (h x hx).distinct

end JsonText

/-! ### Objects -/

/-- A quoted key, a colon and a value. -/
theorem MemberText.of_value {enc key t : List UInt8} {v : Json} (hkey : Encodes enc key)
    (hutf8 : IsUtf8 enc) (h : JsonText t v) :
    MemberText (34 :: enc ++ [34] ++ 58 :: t) (key, v) where
  reads n hn rest hrest := by
    rw [List.length_append, List.length_cons] at hn
    have hvalue := h.reads n (by omega) rest hrest
    have htext : 34 :: enc ++ [34] ++ 58 :: t ++ rest = 34 :: (enc ++ 34 :: 58 :: (t ++ rest)) := by
      simp
    rw [htext, readMember, skipWhite_of_head _ (by rfl)]
    dsimp only
    rw [if_pos rfl, hkey.readChars_eq, Option.bind_some]
    dsimp only
    rw [skipWhite_of_head _ (by rfl)]
    dsimp only
    rw [if_pos rfl, hvalue]
    rfl
  opens := opens_cons _ rfl (by decide) (by decide)
  utf8 := ((hutf8.cons (by decide)).append (.ascii (by decide))).append (h.utf8.cons (by decide))
  distinct := h.distinct

/-- The members of an object with commas between them, at least one. -/
def FieldsText (s : List UInt8) (ms : List (List UInt8 × Json)) : Prop :=
  ∃ xs : List (List UInt8 × (List UInt8 × Json)), xs ≠ [] ∧ s = separated (xs.map (·.1)) ∧
    ms = xs.map (·.2) ∧ ∀ x ∈ xs, MemberText x.1 x.2

namespace FieldsText

theorem single {s : List UInt8} {m : List UInt8 × Json} (h : MemberText s m) :
    FieldsText s [m] := by
  refine ⟨[(s, m)], List.cons_ne_nil _ _, rfl, rfl, ?_⟩
  intro x hx
  rw [List.mem_singleton.mp hx]
  exact h

theorem append {s t : List UInt8} {ms ns : List (List UInt8 × Json)} (hs : FieldsText s ms)
    (ht : FieldsText t ns) : FieldsText (s ++ 44 :: t) (ms ++ ns) := by
  obtain ⟨xs, hx, rfl, rfl, hmx⟩ := hs
  obtain ⟨ys, hy, rfl, rfl, hmy⟩ := ht
  refine ⟨xs ++ ys, by simp [hx], ?_, List.map_append.symm, ?_⟩
  · rw [List.map_append, separated_append (by simp [hx]) (by simp [hy])]
  · intro x hxy
    rcases List.mem_append.mp hxy with h | h
    · exact hmx x h
    · exact hmy x h

/-- Members in braces, no two with one key. -/
theorem object {s : List UInt8} {ms : List (List UInt8 × Json)} (h : FieldsText s ms)
    (hkeys : (ms.map Prod.fst).Nodup) : JsonText (123 :: s ++ [125]) (.object ms) := by
  obtain ⟨xs, -, rfl, rfl, hmember⟩ := h
  have hopens : ∀ t ∈ xs.map (·.1), Opens t := by
    intro t ht
    obtain ⟨x, hx, rfl⟩ := List.mem_map.mp ht
    exact (hmember x hx).opens
  have hutf8 : ∀ t ∈ xs.map (·.1), IsUtf8 t := by
    intro t ht
    obtain ⟨x, hx, rfl⟩ := List.mem_map.mp ht
    exact (hmember x hx).utf8
  refine ⟨?_, opens_cons _ rfl (by decide) (by decide), ?_, ?_⟩
  · intro n hn rest _
    obtain ⟨n, rfl⟩ : ∃ m, n = m + 1 := ⟨n - 1, by omega⟩
    rw [List.cons_append, List.length_cons, List.length_append, List.length_singleton] at hn
    have hreads : List.Forall₂ (Reads (readMember (readValue n))) (xs.map (·.1))
        (xs.map (·.2)) := by
      rw [List.forall₂_map_left_iff, List.forall₂_map_right_iff, List.forall₂_same]
      intro x hx
      have hle : x.1.length ≤ (separated (xs.map (·.1))).length :=
        length_le_separated (List.mem_map.mpr ⟨x, hx, rfl⟩)
      exact (hmember x hx).reads n (by omega)
    have hcount := length_texts_le hopens
    rw [List.cons_append, List.cons_append, List.append_assoc, List.singleton_append,
      readValue_cons (by rfl), if_neg (by decide), if_neg (by decide), if_neg (by decide),
      if_neg (by decide), if_neg (by decide), if_pos rfl,
      readList_separated (.inr rfl) hreads hopens (by omega)]
    rfl
  · exact ((IsUtf8.separated hutf8).cons (by decide)).append (.ascii (by decide))
  · refine .object hkeys ?_
    intro m hm
    obtain ⟨x, hx, rfl⟩ := List.mem_map.mp hm
    exact (hmember x hx).distinct

end FieldsText

end RtaTool
