import Mathlib.Data.List.TakeWhile
import Mathlib.Data.Nat.Digits.Lemmas

/-!
# Numbers in decimal

Decimal text of natural numbers, integers and fractions as bytes, and readers that take the longest
number at the front of a text and return what they left.

## Main definitions

* `decimal`, `readDecimal`, `decimalInt`, `readDecimalInt`, `fraction`, `readFraction`

## Main results

* `readDecimal_decimal`, `readDecimalInt_decimalInt`, `readFraction_fraction` -- a number is read
  back when no digit follows it
* `readDecimal_eq_some_nil`, `readDecimalInt_eq_some_nil` -- the texts that are read to the end
* `eq_decimal_of_readDecimal`, `eq_decimalInt_of_readDecimalInt` -- no shorter text is the number
* `isDigit_of_mem_decimal`, `mem_decimalInt`, `mem_fraction` -- what the texts consist of
-/

namespace RtaTool

/-- `'0'` to `'9'`. -/
def isDigit (c : UInt8) : Bool := 48 ≤ c && c ≤ 57

/-- The byte of a digit. -/
def digitByte (d : ℕ) : UInt8 := UInt8.ofNat (48 + d)

/-- A natural number in decimal. -/
def decimal (n : ℕ) : List UInt8 :=
  if n = 0 then [digitByte 0] else (Nat.digits 10 n).reverse.map digitByte

/-- The value of a row of digits. -/
def decimalValue (ds : List UInt8) : ℕ := ds.foldl (fun n d => 10 * n + (d.toNat - 48)) 0

/-- The longest number at the front of a text, and the rest of it. -/
def readDecimal (s : List UInt8) : Option (ℕ × List UInt8) :=
  let ds := s.takeWhile isDigit
  if ds = [] then none else some (decimalValue ds, s.dropWhile isDigit)

variable {n : ℕ} {c : UInt8} {w rest : List UInt8} {x : ℤ} {s : List UInt8}

/-- The whole text is a row of digits. -/
theorem readDecimal_eq_some_nil :
    readDecimal s = some (n, []) ↔ s ≠ [] ∧ (∀ c ∈ s, isDigit c = true) ∧ decimalValue s = n := by
  rw [readDecimal]
  constructor
  · intro h
    split_ifs at h with hnil
    obtain ⟨hvalue, hrest⟩ := Prod.mk.inj (Option.some.inj h)
    have hall := List.dropWhile_eq_nil_iff.mp hrest
    have htake : s.takeWhile isDigit = s := List.takeWhile_eq_self_iff.mpr hall
    rw [htake] at hnil hvalue
    exact ⟨hnil, hall, hvalue⟩
  · rintro ⟨hne, hall, rfl⟩
    rw [List.takeWhile_eq_self_iff.mpr hall, List.dropWhile_eq_nil_iff.mpr hall, if_neg hne]

theorem toNat_digitByte {d : ℕ} (hd : d < 10) : (digitByte d).toNat = 48 + d := by
  rw [digitByte, UInt8.toNat_ofNat']
  omega

theorem isDigit_digitByte {d : ℕ} (hd : d < 10) : isDigit (digitByte d) = true := by
  rw [isDigit, Bool.and_eq_true, decide_eq_true_iff, decide_eq_true_iff, UInt8.le_iff_toNat_le,
    UInt8.le_iff_toNat_le, toNat_digitByte hd]
  exact ⟨Nat.le_add_right 48 d, by show 48 + d ≤ 57; omega⟩

theorem isDigit_of_mem_decimal (hc : c ∈ decimal n) : isDigit c = true := by
  rw [decimal] at hc
  split at hc
  · rw [List.mem_singleton.mp hc]
    decide
  · obtain ⟨d, hd, rfl⟩ := List.mem_map.mp hc
    exact isDigit_digitByte (Nat.digits_lt_base (by omega) (List.mem_reverse.mp hd))

theorem decimal_ne_nil (n : ℕ) : decimal n ≠ [] := by
  rw [decimal]
  split
  · simp
  · rename_i hn
    simpa [Nat.digits_eq_nil_iff_eq_zero] using hn

theorem length_decimal_le {n k : ℕ} (hk : 0 < k) (h : n < 10 ^ k) : (decimal n).length ≤ k := by
  rw [decimal]
  split
  · exact hk
  · rw [List.length_map, List.length_reverse]
    exact (Nat.digits_length_le_iff (by decide) n).mpr h

/-- The value of a number's digits is the number. -/
theorem decimalValue_decimal (n : ℕ) : decimalValue (decimal n) = n := by
  rw [decimal]
  split
  · rename_i hn
    rw [hn]
    rfl
  · have hfold : ∀ ds : List ℕ, (∀ d ∈ ds, d < 10) →
        decimalValue (ds.reverse.map digitByte) = Nat.ofDigits 10 ds := by
      intro ds
      induction ds with
      | nil => intro _; rfl
      | cons d ds ih =>
        intro hds
        obtain ⟨hd, hrest⟩ := List.forall_mem_cons.mp hds
        have hih := ih hrest
        rw [decimalValue] at hih
        rw [decimalValue, List.reverse_cons, List.map_append, List.foldl_append, hih,
          Nat.ofDigits_cons]
        simp only [List.map_cons, List.map_nil, List.foldl_cons, List.foldl_nil,
          toNat_digitByte hd]
        omega
    rw [hfold _ fun d hd => Nat.digits_lt_base (by omega) hd, Nat.ofDigits_digits]

theorem readDecimal_decimal (n : ℕ) (rest : List UInt8)
    (hrest : ∀ c ∈ rest.head?, isDigit c = false) :
    readDecimal (decimal n ++ rest) = some (n, rest) := by
  have htake : (decimal n ++ rest).takeWhile isDigit = decimal n := by
    rw [List.takeWhile_append_of_pos fun c hc => isDigit_of_mem_decimal hc]
    cases rest with
    | nil => simp
    | cons c rest => simp [hrest c rfl]
  have hdrop : (decimal n ++ rest).dropWhile isDigit = rest := by
    rw [List.dropWhile_append_of_pos fun c hc => isDigit_of_mem_decimal hc]
    cases rest with
    | nil => simp
    | cons c rest => simp [hrest c rfl]
  rw [readDecimal, htake, hdrop, if_neg (decimal_ne_nil n), decimalValue_decimal]

theorem decimalValue_append (ds es : List UInt8) :
    decimalValue (ds ++ es) = decimalValue ds * 10 ^ es.length + decimalValue es := by
  induction es using List.reverseRecOn with
  | nil => simp [decimalValue]
  | append_singleton es d ih =>
    rw [← List.append_assoc, decimalValue, List.foldl_append, ← decimalValue, ih]
    have hlast : decimalValue (es ++ [d]) = 10 * decimalValue es + (d.toNat - 48) := by
      rw [decimalValue, List.foldl_append, ← decimalValue]
      rfl
    rw [hlast, List.length_append, List.length_singleton, pow_succ]
    simp only [List.foldl_cons, List.foldl_nil]
    ring

/-- No shorter beginning of a number's text is the number. -/
theorem eq_decimal_of_prefix {w : List UInt8} (hw : w ≠ []) (hp : w <+: decimal n)
    (hvalue : decimalValue w = n) : w = decimal n := by
  obtain ⟨t, ht⟩ := hp
  obtain rfl | hn := Nat.eq_zero_or_pos n
  · have hone : (decimal 0).length = 1 := rfl
    have hlength := congrArg List.length ht
    have hpos := List.length_pos_iff.mpr hw
    rw [List.length_append, hone] at hlength
    rw [← ht, List.length_eq_zero_iff.mp (by omega : t.length = 0), List.append_nil]
  · have hsplit := decimalValue_append w t
    rw [ht, decimalValue_decimal, hvalue] at hsplit
    have hnil : t.length = 0 := by
      by_contra hne
      have hten : 10 ^ 1 ≤ 10 ^ t.length := Nat.pow_le_pow_right (by omega) (by omega)
      have hgrow : n * 10 ^ 1 ≤ n * 10 ^ t.length := Nat.mul_le_mul_left n hten
      omega
    rw [← ht, List.length_eq_zero_iff.mp hnil, List.append_nil]

/-- A beginning of a number's text that is read as the number is the whole of it. -/
theorem eq_decimal_of_readDecimal (hp : w <+: decimal n)
    (hread : readDecimal w = some (n, rest)) : w = decimal n := by
  have hall : ∀ c ∈ w, isDigit c = true := fun c hc => isDigit_of_mem_decimal (hp.subset hc)
  rw [readDecimal, List.takeWhile_eq_self_iff.mpr hall] at hread
  split_ifs at hread with hnil
  exact eq_decimal_of_prefix hnil hp (Prod.mk.inj (Option.some.inj hread)).1

/-- An integer in decimal. -/
def decimalInt : ℤ → List UInt8
  | .ofNat n => decimal n
  | .negSucc n => 45 :: decimal (n + 1)

/-- The integer at the front of a text, and the rest of it. -/
def readDecimalInt : List UInt8 → Option (ℤ × List UInt8)
  | [] => none
  | c :: s =>
    if c = 45 then (readDecimal s).map fun r => (-(r.1 : ℤ), r.2)
    else (readDecimal (c :: s)).map fun r => (r.1, r.2)

/-- The whole text is a row of digits, maybe with a minus before it. -/
theorem readDecimalInt_eq_some_nil :
    readDecimalInt s = some (x, []) ↔ ∃ ds, ds ≠ [] ∧ (∀ c ∈ ds, isDigit c = true) ∧
      (s = ds ∧ x = decimalValue ds ∨ s = 45 :: ds ∧ x = -decimalValue ds) := by
  cases s with
  | nil => simp [readDecimalInt]
  | cons c s =>
    rw [readDecimalInt]
    constructor
    · intro h
      split_ifs at h with hminus
      · obtain ⟨⟨n, rest⟩, hread, heq⟩ := Option.map_eq_some_iff.mp h
        obtain ⟨rfl, rfl⟩ := Prod.mk.inj heq
        obtain ⟨hne, hall, rfl⟩ := readDecimal_eq_some_nil.mp hread
        exact ⟨s, hne, hall, .inr ⟨by rw [hminus], rfl⟩⟩
      · obtain ⟨⟨n, rest⟩, hread, heq⟩ := Option.map_eq_some_iff.mp h
        obtain ⟨rfl, rfl⟩ := Prod.mk.inj heq
        obtain ⟨hne, hall, rfl⟩ := readDecimal_eq_some_nil.mp hread
        exact ⟨c :: s, hne, hall, .inl ⟨rfl, rfl⟩⟩
    · rintro ⟨ds, hne, hall, ⟨rfl, rfl⟩ | ⟨hs, rfl⟩⟩
      · have hc : c ≠ 45 := by
          rintro rfl
          exact absurd (hall 45 List.mem_cons_self) (by decide)
        rw [if_neg hc, readDecimal_eq_some_nil.mpr ⟨hne, hall, rfl⟩]
        rfl
      · obtain ⟨rfl, rfl⟩ := List.cons.inj hs
        rw [if_pos rfl, readDecimal_eq_some_nil.mpr ⟨hne, hall, rfl⟩]
        rfl

theorem decimalInt_ne_nil (x : ℤ) : decimalInt x ≠ [] := by
  cases x with
  | ofNat n => exact decimal_ne_nil n
  | negSucc n => exact List.cons_ne_nil _ _

theorem mem_decimalInt (hc : c ∈ decimalInt x) : isDigit c = true ∨ c = 45 := by
  cases x with
  | ofNat n => exact .inl (isDigit_of_mem_decimal hc)
  | negSucc n =>
    rcases List.mem_cons.mp hc with h | h
    · exact .inr h
    · exact .inl (isDigit_of_mem_decimal h)

theorem readDecimalInt_decimalInt (x : ℤ) (rest : List UInt8)
    (hrest : ∀ c ∈ rest.head?, isDigit c = false) :
    readDecimalInt (decimalInt x ++ rest) = some (x, rest) := by
  cases x with
  | ofNat n =>
    obtain ⟨c, s, hcs⟩ := List.exists_cons_of_ne_nil (decimal_ne_nil n)
    have hc : c ≠ 45 := by
      rintro rfl
      have hdigit : isDigit 45 = true := isDigit_of_mem_decimal (hcs ▸ List.mem_cons_self)
      exact absurd hdigit (by decide)
    have hread := readDecimal_decimal n rest hrest
    rw [hcs, List.cons_append] at hread
    rw [decimalInt, hcs, List.cons_append, readDecimalInt, if_neg hc, hread]
    rfl
  | negSucc n =>
    rw [decimalInt, List.cons_append, readDecimalInt, if_pos rfl, readDecimal_decimal _ rest hrest]
    rfl

/-- A beginning of an integer's text that is read as the integer is the whole of it. -/
theorem eq_decimalInt_of_readDecimalInt (hp : w <+: decimalInt x)
    (hread : readDecimalInt w = some (x, rest)) : w = decimalInt x := by
  cases w with
  | nil => cases hread
  | cons c w =>
    cases x with
    | ofNat n =>
      have hc : c ≠ 45 := by
        rintro rfl
        have hdigit : isDigit 45 = true := isDigit_of_mem_decimal (hp.subset List.mem_cons_self)
        exact absurd hdigit (by decide)
      rw [readDecimalInt, if_neg hc] at hread
      obtain ⟨⟨m, rest'⟩, hm, heq⟩ := Option.map_eq_some_iff.mp hread
      obtain rfl : m = n := Int.ofNat.inj (Prod.mk.inj heq).1
      exact eq_decimal_of_readDecimal hp hm
    | negSucc n =>
      obtain ⟨rfl, hw⟩ := List.cons_prefix_cons.mp hp
      rw [readDecimalInt, if_pos rfl] at hread
      obtain ⟨⟨m, rest'⟩, hm, heq⟩ := Option.map_eq_some_iff.mp hread
      obtain rfl : m = n + 1 := by
        have hvalue := (Prod.mk.inj heq).1
        rw [Int.negSucc_eq] at hvalue
        omega
      rw [eq_decimal_of_readDecimal hw hm]
      rfl

/-- A fraction: a whole number as itself, and any other with its denominator after a slash. -/
def fraction (q : ℚ) : List UInt8 :=
  if q.den = 1 then decimalInt q.num else decimalInt q.num ++ 47 :: decimal q.den

/-- The fraction at the front of a text, and the rest of it. -/
def readFraction (s : List UInt8) : Option (ℚ × List UInt8) :=
  match readDecimalInt s with
  | none => none
  | some (num, 47 :: rest) => (readDecimal rest).map fun r => (mkRat num r.1, r.2)
  | some (num, rest) => some (num, rest)

theorem fraction_ne_nil (q : ℚ) : fraction q ≠ [] := by
  rw [fraction]
  split
  · exact decimalInt_ne_nil q.num
  · simp

theorem mem_fraction {q : ℚ} (hc : c ∈ fraction q) :
    isDigit c = true ∨ c = 45 ∨ c = 47 := by
  rw [fraction] at hc
  split at hc
  · exact (mem_decimalInt hc).imp_right .inl
  · rcases List.mem_append.mp hc with h | h
    · exact (mem_decimalInt h).imp_right .inl
    · rcases List.mem_cons.mp h with h | h
      · exact .inr (.inr h)
      · exact .inl (isDigit_of_mem_decimal h)

theorem readFraction_fraction (q : ℚ) : readFraction (fraction q) = some (q, []) := by
  rw [fraction]
  split
  · rename_i hden
    have hread := readDecimalInt_decimalInt q.num [] (by simp)
    rw [List.append_nil] at hread
    rw [readFraction, hread]
    have hq : (q.num : ℚ) = q := by
      conv_rhs => rw [← Rat.mkRat_self q, hden]
      rw [← Rat.mkRat_one]
    simp [hq]
  · have hread := readDecimalInt_decimalInt q.num (47 :: decimal q.den) (by simp; decide)
    have hden := readDecimal_decimal q.den [] (by simp)
    rw [List.append_nil] at hden
    rw [readFraction, hread]
    simp [hden, Rat.mkRat_self]

end RtaTool
