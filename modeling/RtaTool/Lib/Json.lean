import RtaTool.Lib.StreamText

/-!
# Reading JSON

A reader of JSON that follows RFC 8259 over the bytes of a text. A number is kept as its text and a
string as its bytes, so that what is read can be compared with what was written. The escape of a
surrogate is refused, so every text the reader accepts is one of the RFC's, and not the other way
round.

## Main definitions

* `Json`, `readValue`, `readJson` -- values and their reader
* `Json.member?`, `Json.DistinctKeys`, `IsUtf8`
* `NumberForm` -- a number as `printf` writes it

## Main results

* `NumberForm.readNumber_append` -- such a number is read whole
-/

namespace RtaTool

/-- A JSON value. A number is its text, and a string its bytes. -/
inductive Json
  | null
  | bool (b : Bool)
  | number (text : List UInt8)
  | string (text : List UInt8)
  | array (items : List Json)
  | object (members : List (List UInt8 × Json))

/-! ### Reading -/

/-- A blank, a tab, a line feed or a carriage return. -/
def isWhite (c : UInt8) : Bool := c = 32 || c = 9 || c = 10 || c = 13

def skipWhite (s : List UInt8) : List UInt8 := s.dropWhile isWhite

/-- A row of digits, at least one. -/
def readDigits (s : List UInt8) : Option (List UInt8 × List UInt8) :=
  let ds := s.takeWhile isDigit
  if ds = [] then none else some (ds, s.dropWhile isDigit)

/-- A minus, where there is one. -/
def readMinus : List UInt8 → List UInt8 × List UInt8
  | [] => ([], [])
  | c :: s => if c = 45 then ([45], s) else ([], c :: s)

/-- The digits before the point: one zero, or digits that do not begin with a zero. -/
def readWhole : List UInt8 → Option (List UInt8 × List UInt8)
  | [] => none
  | c :: s => if c = 48 then some ([48], s) else readDigits (c :: s)

/-- The point and the digits after it, where there is one. -/
def readPoint : List UInt8 → Option (List UInt8 × List UInt8)
  | [] => some ([], [])
  | c :: s =>
    if c = 46 then (readDigits s).map fun r => (46 :: r.1, r.2) else some ([], c :: s)

/-- A sign, where there is one. -/
def readSign : List UInt8 → List UInt8 × List UInt8
  | [] => ([], [])
  | c :: s => if c = 43 ∨ c = 45 then ([c], s) else ([], c :: s)

/-- The exponent, where there is one. -/
def readExponent : List UInt8 → Option (List UInt8 × List UInt8)
  | [] => some ([], [])
  | c :: s =>
    if c = 69 ∨ c = 101 then
      (readDigits (readSign s).2).map fun r => (c :: (readSign s).1 ++ r.1, r.2)
    else some ([], c :: s)

/-- The longest number at the front of a text, and the rest of it. -/
def readNumber (s : List UInt8) : Option (List UInt8 × List UInt8) :=
  (readWhole (readMinus s).2).bind fun whole =>
    (readPoint whole.2).bind fun point =>
      (readExponent point.2).map fun exponent =>
        ((readMinus s).1 ++ whole.1 ++ point.1 ++ exponent.1, exponent.2)

/-- The value of a hexadecimal digit. -/
def hexDigit (c : UInt8) : Option ℕ :=
  if 48 ≤ c ∧ c ≤ 57 then some (c.toNat - 48)
  else if 65 ≤ c ∧ c ≤ 70 then some (c.toNat - 55)
  else if 97 ≤ c ∧ c ≤ 102 then some (c.toNat - 87)
  else none

/-- The character of four hexadecimal digits, in UTF-8. -/
def hexChar (a b c d : UInt8) : Option (List UInt8) := do
  let a ← hexDigit a
  let b ← hexDigit b
  let c ← hexDigit c
  let d ← hexDigit d
  let n := ((a * 16 + b) * 16 + c) * 16 + d
  if n.isValidChar then some (String.utf8EncodeChar (Char.ofNat n)) else none

/-- What a byte after a backslash stands for. -/
def unescaped (c : UInt8) : Option UInt8 :=
  if c = 34 ∨ c = 92 ∨ c = 47 then some c
  else if c = 98 then some 8
  else if c = 102 then some 12
  else if c = 110 then some 10
  else if c = 114 then some 13
  else if c = 116 then some 9
  else none

/-- The characters of a string after its first quote, and what comes after its last one. -/
def readChars : List UInt8 → Option (List UInt8 × List UInt8)
  | [] => none
  | c :: s =>
    if c = 34 then some ([], s)
    else if c = 92 then
      match s with
      | [] => none
      | e :: s =>
        if e = 117 then
          match s with
          | a :: b :: c :: d :: s =>
            (hexChar a b c d).bind fun char => (readChars s).map fun r => (char ++ r.1, r.2)
          | _ => none
        else (unescaped e).bind fun byte => (readChars s).map fun r => (byte :: r.1, r.2)
    else if c < 32 then none
    else (readChars s).map fun r => (c :: r.1, r.2)

/-- Items with commas between them, up to `close`. -/
def readItems {α : Type} (item : List UInt8 → Option (α × List UInt8)) (close : UInt8) :
    ℕ → List UInt8 → Option (List α × List UInt8)
  | 0, _ => none
  | n + 1, s =>
    (item s).bind fun first =>
      match skipWhite first.2 with
      | [] => none
      | c :: s =>
        if c = 44 then (readItems item close n s).map fun rest => (first.1 :: rest.1, rest.2)
        else if c = close then some ([first.1], s)
        else none

/-- The items of a list after its first bracket, if there are any. -/
def readList {α : Type} (item : List UInt8 → Option (α × List UInt8)) (close : UInt8) (n : ℕ)
    (s : List UInt8) : Option (List α × List UInt8) :=
  match skipWhite s with
  | [] => none
  | c :: rest => if c = close then some ([], rest) else readItems item close n s

/-- A key, a colon and a value. -/
def readMember (value : List UInt8 → Option (Json × List UInt8)) (s : List UInt8) :
    Option ((List UInt8 × Json) × List UInt8) :=
  match skipWhite s with
  | [] => none
  | c :: s =>
    if c = 34 then
      (readChars s).bind fun key =>
        match skipWhite key.2 with
        | [] => none
        | c :: s => if c = 58 then (value s).map fun r => ((key.1, r.1), r.2) else none
    else none

/-- The rest of a word that stands for a value. -/
def readWord (word : List UInt8) (v : Json) (s : List UInt8) : Option (Json × List UInt8) :=
  if word <+: s then some (v, s.drop word.length) else none

/-- A value at the front of a text, and the rest of it. The number bounds how deep and how long
lists may be. -/
def readValue : ℕ → List UInt8 → Option (Json × List UInt8)
  | 0, _ => none
  | n + 1, s =>
    match skipWhite s with
    | [] => none
    | c :: rest =>
      if c = 110 then readWord [117, 108, 108] .null rest
      else if c = 116 then readWord [114, 117, 101] (.bool true) rest
      else if c = 102 then readWord [97, 108, 115, 101] (.bool false) rest
      else if c = 34 then (readChars rest).map fun r => (.string r.1, r.2)
      else if c = 91 then (readList (readValue n) 93 n rest).map fun r => (.array r.1, r.2)
      else if c = 123 then
        (readList (readMember (readValue n)) 125 n rest).map fun r => (.object r.1, r.2)
      else (readNumber (c :: rest)).map fun r => (.number r.1, r.2)

/-- A whole document. -/
def readJson (s : List UInt8) : Option Json :=
  (readValue (s.length + 1) s).bind fun r => if skipWhite r.2 = [] then some r.1 else none

/-! ### Properties of a document -/

/-- The first member of an object under a key. -/
def Json.member? : Json → List UInt8 → Option Json
  | .object members, key => (members.find? fun m => m.1 = key).map (·.2)
  | _, _ => none

/-- No object has a key twice. -/
inductive Json.DistinctKeys : Json → Prop
  | null : DistinctKeys .null
  | bool (b : Bool) : DistinctKeys (.bool b)
  | number (text : List UInt8) : DistinctKeys (.number text)
  | string (text : List UInt8) : DistinctKeys (.string text)
  | array {items : List Json} (h : ∀ v ∈ items, DistinctKeys v) : DistinctKeys (.array items)
  | object {members : List (List UInt8 × Json)} (hkeys : (members.map Prod.fst).Nodup)
      (h : ∀ m ∈ members, DistinctKeys m.2) : DistinctKeys (.object members)

/-- The bytes of characters in UTF-8. -/
def IsUtf8 (s : List UInt8) : Prop := ∃ chars : List Char, s = chars.flatMap String.utf8EncodeChar

namespace IsUtf8

theorem nil : IsUtf8 [] := ⟨[], rfl⟩

theorem append {s t : List UInt8} (hs : IsUtf8 s) (ht : IsUtf8 t) : IsUtf8 (s ++ t) := by
  obtain ⟨chars, rfl⟩ := hs
  obtain ⟨chars', rfl⟩ := ht
  exact ⟨chars ++ chars', List.flatMap_append.symm⟩

/-- A byte below 128 is a character. -/
theorem ascii {c : UInt8} (h : c < 128) : IsUtf8 [c] := by
  have hall : ∀ n : Fin 128, [UInt8.ofNat n] = String.utf8EncodeChar (Char.ofNat n) := by decide
  have hchar := hall ⟨c.toNat, UInt8.lt_iff_toNat_lt.mp h⟩
  rw [UInt8.ofNat_toNat] at hchar
  exact ⟨[Char.ofNat c.toNat], by rw [List.flatMap_singleton]; exact hchar⟩

theorem of_ascii {s : List UInt8} (h : ∀ c ∈ s, c < 128) : IsUtf8 s := by
  induction s with
  | nil => exact nil
  | cons c s ih =>
    obtain ⟨hc, hs⟩ := List.forall_mem_cons.mp h
    exact (ascii hc).append (ih hs)

theorem cons {c : UInt8} {s : List UInt8} (h : c < 128) (hs : IsUtf8 s) : IsUtf8 (c :: s) :=
  (ascii h).append hs

theorem flatMap {α : Type*} {f : α → List UInt8} {xs : List α} (h : ∀ x ∈ xs, IsUtf8 (f x)) :
    IsUtf8 (xs.flatMap f) := by
  induction xs with
  | nil => exact nil
  | cons x xs ih =>
    obtain ⟨hx, hxs⟩ := List.forall_mem_cons.mp h
    exact hx.append (ih hxs)

end IsUtf8

/-! ### Numbers -/

/-- What may come after a value inside a document: a comma, or a bracket that closes. -/
def Stops (rest : List UInt8) : Prop := ∀ c, rest.head? = some c → c = 44 ∨ c = 93 ∨ c = 125

theorem Stops.nil : Stops [] := by
  intro c hc
  exact absurd hc (by simp)

theorem readDigits_append {ds rest : List UInt8} (hne : ds ≠ [])
    (hds : ∀ c ∈ ds, isDigit c = true) (hrest : ∀ c, rest.head? = some c → isDigit c = false) :
    readDigits (ds ++ rest) = some (ds, rest) := by
  have hnone : rest.takeWhile isDigit = [] ∧ rest.dropWhile isDigit = rest := by
    cases rest with
    | nil => exact ⟨rfl, rfl⟩
    | cons c rest =>
      have hc := hrest c rfl
      exact ⟨by rw [List.takeWhile_cons, hc]; rfl, by rw [List.dropWhile_cons, hc]; rfl⟩
  rw [readDigits, List.takeWhile_append_of_pos hds, List.dropWhile_append_of_pos hds, hnone.1,
    hnone.2, List.append_nil]
  exact if_neg hne

/-- A number as `printf` writes it: a sign, digits, maybe a point and digits, and maybe an exponent
with its sign. -/
structure NumberForm where
  negative : Bool
  whole : List UInt8
  point : Option (List UInt8)
  exponent : Option (UInt8 × List UInt8)

namespace NumberForm

def exponentText (f : NumberForm) : List UInt8 := f.exponent.elim [] fun e => 101 :: e.1 :: e.2

def pointText (f : NumberForm) : List UInt8 := f.point.elim [] fun ds => 46 :: ds

def text (f : NumberForm) : List UInt8 :=
  (if f.negative then [45] else []) ++ (f.whole ++ (f.pointText ++ f.exponentText))

/-- Every row of digits has a digit, and the first has no zero before another digit. -/
structure Valid (f : NumberForm) : Prop where
  whole_ne_nil : f.whole ≠ []
  whole : ∀ c ∈ f.whole, isDigit c = true
  leading : f.whole = [48] ∨ f.whole.head? ≠ some 48
  point : ∀ ds, f.point = some ds → ds ≠ [] ∧ ∀ c ∈ ds, isDigit c = true
  exponent : ∀ e, f.exponent = some e →
    (e.1 = 43 ∨ e.1 = 45) ∧ e.2 ≠ [] ∧ ∀ c ∈ e.2, isDigit c = true

variable {f : NumberForm} {rest : List UInt8}

theorem readExponent_append (h : f.Valid) (hrest : Stops rest) :
    readExponent (f.exponentText ++ rest) = some (f.exponentText, rest) := by
  have hdigit : ∀ c, rest.head? = some c → isDigit c = false := by
    intro c hc
    rcases hrest c hc with rfl | rfl | rfl
    · rfl
    · rfl
    · rfl
  cases hexp : f.exponent with
  | none =>
    rw [exponentText, hexp]
    cases rest with
    | nil => rfl
    | cons c rest =>
      have hc : ¬ (c = 69 ∨ c = 101) := by
        rcases hrest c rfl with rfl | rfl | rfl
        · decide
        · decide
        · decide
      exact if_neg hc
  | some e =>
    obtain ⟨hsign, hne, hds⟩ := h.exponent e hexp
    have hread : readSign (e.1 :: (e.2 ++ rest)) = ([e.1], e.2 ++ rest) := if_pos hsign
    rw [exponentText, hexp]
    change readExponent (101 :: e.1 :: (e.2 ++ rest)) = _
    rw [readExponent, if_pos (.inr rfl), hread, readDigits_append hne hds hdigit]
    rfl

theorem head?_pointText_append (hrest : Stops rest) {c : UInt8}
    (hc : (f.pointText ++ (f.exponentText ++ rest)).head? = some c) : isDigit c = false := by
  cases hpoint : f.point with
  | some ds =>
    rw [pointText, hpoint] at hc
    obtain rfl := Option.some.inj hc
    rfl
  | none =>
    rw [pointText, hpoint] at hc
    cases hexp : f.exponent with
    | some e =>
      rw [exponentText, hexp] at hc
      obtain rfl := Option.some.inj hc
      rfl
    | none =>
      rw [exponentText, hexp] at hc
      rcases hrest c hc with rfl | rfl | rfl
      · rfl
      · rfl
      · rfl

theorem readPoint_append (h : f.Valid) (hrest : Stops rest) :
    readPoint (f.pointText ++ (f.exponentText ++ rest)) =
      some (f.pointText, f.exponentText ++ rest) := by
  have hhead : ∀ c, (f.exponentText ++ rest).head? = some c → isDigit c = false ∧ c ≠ 46 := by
    intro c hc
    cases hexp : f.exponent with
    | some e =>
      rw [exponentText, hexp] at hc
      obtain rfl := Option.some.inj hc
      exact ⟨rfl, by decide⟩
    | none =>
      rw [exponentText, hexp] at hc
      rcases hrest c hc with rfl | rfl | rfl
      · exact ⟨rfl, by decide⟩
      · exact ⟨rfl, by decide⟩
      · exact ⟨rfl, by decide⟩
  cases hpoint : f.point with
  | none =>
    rw [pointText, hpoint]
    change readPoint (f.exponentText ++ rest) = some ([], f.exponentText ++ rest)
    generalize f.exponentText ++ rest = s at hhead ⊢
    cases s with
    | nil => rfl
    | cons c s => exact if_neg (hhead c rfl).2
  | some ds =>
    obtain ⟨hne, hds⟩ := h.point ds hpoint
    rw [pointText, hpoint]
    change readPoint (46 :: (ds ++ (f.exponentText ++ rest))) = _
    rw [readPoint, if_pos rfl, readDigits_append hne hds fun c hc => (hhead c hc).1]
    rfl

theorem readWhole_append (h : f.Valid)
    (hrest : ∀ c, rest.head? = some c → isDigit c = false) :
    readWhole (f.whole ++ rest) = some (f.whole, rest) := by
  rcases h.leading with hzero | hhead
  · rw [hzero]
    rfl
  · obtain ⟨c, ds, hwhole⟩ := List.exists_cons_of_ne_nil h.whole_ne_nil
    have hc : c ≠ 48 := by
      rintro rfl
      rw [hwhole] at hhead
      exact hhead rfl
    have hread := readDigits_append h.whole_ne_nil h.whole hrest
    rw [hwhole] at hread ⊢
    exact (if_neg hc).trans hread

theorem readMinus_append (h : f.Valid) :
    readMinus (f.text ++ rest) =
      (if f.negative then [45] else [], f.whole ++ (f.pointText ++ (f.exponentText ++ rest))) := by
  rw [text]
  cases f.negative with
  | true => simp [readMinus]
  | false =>
    obtain ⟨c, ds, hwhole⟩ := List.exists_cons_of_ne_nil h.whole_ne_nil
    have hdigit : isDigit c = true := h.whole c (by simp [hwhole])
    have hc : c ≠ 45 := by
      rintro rfl
      exact absurd hdigit (by decide)
    simp [hwhole, readMinus, hc]

/-- A number is read whole. -/
theorem readNumber_append (h : f.Valid) (hrest : Stops rest) :
    readNumber (f.text ++ rest) = some (f.text, rest) := by
  rw [readNumber, readMinus_append h]
  dsimp only
  rw [readWhole_append h fun c hc => head?_pointText_append hrest hc, Option.bind_some]
  dsimp only
  rw [readPoint_append h hrest, Option.bind_some]
  dsimp only
  rw [readExponent_append h hrest, Option.map_some]
  simp only [text, List.append_assoc]

theorem mem_text (h : f.Valid) {c : UInt8} (hc : c ∈ f.text) :
    isDigit c = true ∨ c = 43 ∨ c = 45 ∨ c = 46 ∨ c = 101 := by
  rw [text, List.mem_append, List.mem_append, List.mem_append] at hc
  rcases hc with hc | hc | hc | hc
  · split_ifs at hc
    · exact .inr (.inr (.inl (List.mem_singleton.mp hc)))
    · exact absurd hc List.not_mem_nil
  · exact .inl (h.whole c hc)
  · cases hpoint : f.point with
    | none =>
      rw [pointText, hpoint] at hc
      exact absurd hc List.not_mem_nil
    | some ds =>
      rw [pointText, hpoint] at hc
      rcases List.mem_cons.mp hc with rfl | hc
      · simp
      · exact .inl ((h.point ds hpoint).2 c hc)
  · cases hexp : f.exponent with
    | none =>
      rw [exponentText, hexp] at hc
      exact absurd hc List.not_mem_nil
    | some e =>
      obtain ⟨hsign, -, hds⟩ := h.exponent e hexp
      rw [exponentText, hexp] at hc
      rcases List.mem_cons.mp hc with rfl | hc
      · simp
      · rcases List.mem_cons.mp hc with rfl | hc
        · rcases hsign with hsign | hsign
          · exact .inr (.inl hsign)
          · exact .inr (.inr (.inl hsign))
        · exact .inl (hds c hc)

theorem text_ne_nil (h : f.Valid) : f.text ≠ [] := by
  rw [text]
  intro hnil
  exact h.whole_ne_nil (List.append_eq_nil_iff.mp (List.append_eq_nil_iff.mp hnil).2).1

/-- A natural number. -/
def ofNat (n : ℕ) : NumberForm := ⟨false, decimal n, none, none⟩

/-- An integer. -/
def ofInt (i : ℤ) : NumberForm := ⟨decide (i < 0), decimal i.natAbs, none, none⟩

/-- Only zero is written with a zero in front. -/
theorem leading_decimal (n : ℕ) : decimal n = [48] ∨ (decimal n).head? ≠ some 48 := by
  by_cases hn : n = 0
  · left
    rw [hn]
    rfl
  · right
    have hne : Nat.digits 10 n ≠ [] := Nat.digits_ne_nil_iff_ne_zero.mpr hn
    have hlast := Nat.getLast_digit_ne_zero 10 hn
    have hlt := Nat.digits_lt_base (by omega) (List.getLast_mem hne)
    rw [decimal, if_neg hn, List.head?_map, List.head?_reverse, List.getLast?_eq_some_getLast hne,
      Option.map_some]
    intro h
    have hbyte := toNat_digitByte hlt
    rw [Option.some.inj h] at hbyte
    have hval : (48 : UInt8).toNat = 48 := rfl
    omega

theorem valid_ofNat (n : ℕ) : (ofNat n).Valid where
  whole_ne_nil := decimal_ne_nil n
  whole _ hc := isDigit_of_mem_decimal hc
  leading := leading_decimal n
  point _ h := absurd h (by simp [ofNat])
  exponent _ h := absurd h (by simp [ofNat])

theorem valid_ofInt (i : ℤ) : (ofInt i).Valid where
  whole_ne_nil := decimal_ne_nil _
  whole _ hc := isDigit_of_mem_decimal hc
  leading := leading_decimal _
  point _ h := absurd h (by simp [ofInt])
  exponent _ h := absurd h (by simp [ofInt])

theorem text_ofNat (n : ℕ) : (ofNat n).text = decimal n := by
  simp [text, ofNat, pointText, exponentText]

theorem text_ofInt (i : ℤ) : (ofInt i).text = decimalInt i := by
  cases i with
  | ofNat n =>
    simp [text, ofInt, pointText, exponentText, decimalInt]
  | negSucc n => simp [text, ofInt, pointText, exponentText, decimalInt, Int.negSucc_lt_zero]

end NumberForm

end RtaTool
