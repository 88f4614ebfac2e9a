import RtaTool.Lib.Binary64
import RtaTool.Lib.Decimal

/-!
# Formatted text

Numbers printed with so many digits after the point, and words and numbers taken off the front of a
text, with what is left of it. Blanks before a word or a number are skipped; a number is a sign,
digits with or without a point, and maybe an exponent, and what it stands for is rounded to the
nearest double.

## Main definitions

* `fixedText`, `printFixed` -- `%.nf`
* `extractWord`, `scanNumber`, `extractDouble` -- `operator>>`
* `Binary64.roundedTo` -- a double printed and read back

## Main results

* `scanNumber_fixedText` -- what is printed is read, up to what cannot go on a number
* `Binary64.roundedTo_spec` -- a double printed and read back, and that printing it again gives the
  same text
-/

namespace RtaTool

/-! ### Printing -/

/-- The last digits of a number, with zeros before them. -/
def paddedDecimal : ℕ → ℕ → List UInt8
  | 0, _ => []
  | places + 1, n => paddedDecimal places (n / 10) ++ [digitByte (n % 10)]

/-- A number of units, `places` digits of it after the point. -/
def fixedText (places n : ℕ) : List UInt8 :=
  decimal (n / 10 ^ places) ++
    if places = 0 then [] else 46 :: paddedDecimal places (n % 10 ^ places)

/-- A minus, where there is one. -/
def signText (negative : Bool) : List UInt8 := if negative then [45] else []

/-- A double with `places` digits after the point: the nearest, the even one of two. -/
def printFixed (places : ℕ) : Binary64Datum → List UInt8
  | .finite x => signText x.negative ++ fixedText places (roundEven (x.magnitude * 10 ^ places))
  | .infinite negative => signText negative ++ [105, 110, 102]
  | .notANumber negative => signText negative ++ [110, 97, 110]

/-! ### Reading -/

/-- A blank, a tab, or another character that `operator>>` skips. -/
def isSpace (c : UInt8) : Bool := c = 32 || (9 ≤ c && c ≤ 13)

/-- `operator>>` to a word. -/
def extractWord (s : List UInt8) : Option (List UInt8 × List UInt8) :=
  let s := s.dropWhile isSpace
  let word := s.takeWhile (!isSpace ·)
  if word = [] then none else some (word, s.dropWhile (!isSpace ·))

/-- A sign, where there is one. -/
def scanSign : List UInt8 → Bool × List UInt8
  | [] => (false, [])
  | c :: s => if c = 45 then (true, s) else if c = 43 then (false, s) else (false, c :: s)

/-- The digits after the point, where there is one. -/
def scanFraction : List UInt8 → List UInt8 × List UInt8
  | [] => ([], [])
  | c :: s => if c = 46 then (s.takeWhile isDigit, s.dropWhile isDigit) else ([], c :: s)

/-- The exponent, where there is one; an `e` needs digits after it. -/
def scanExponent : List UInt8 → Option (ℤ × List UInt8)
  | [] => some (0, [])
  | c :: s =>
    if c = 101 ∨ c = 69 then
      let sign := scanSign s
      (readDecimal sign.2).map fun r => (if sign.1 then -(r.1 : ℤ) else r.1, r.2)
    else some (0, c :: s)

/-- A number: its sign and its magnitude. -/
def scanNumber (s : List UInt8) : Option (Bool × ℚ × List UInt8) :=
  let sign := scanSign s
  let whole := sign.2.takeWhile isDigit
  let fraction := scanFraction (sign.2.dropWhile isDigit)
  if whole ++ fraction.1 = [] then none
  else
    (scanExponent fraction.2).map fun e =>
      (sign.1, (decimalValue (whole ++ fraction.1) : ℚ) * 10 ^ (e.1 - (fraction.1.length : ℤ)), e.2)

/-- `operator>>` to a double. It fails where the nearest one would be past the greatest. -/
def extractDouble (s : List UInt8) : Option (Binary64Datum × List UInt8) :=
  match scanNumber (s.dropWhile isSpace) with
  | none => none
  | some (negative, q, rest) => (Binary64.nearest negative q).map fun x => (.finite x, rest)

/-! ### Digits -/

@[simp] theorem length_paddedDecimal (places n : ℕ) : (paddedDecimal places n).length = places := by
  induction places generalizing n with
  | zero => rfl
  | succ places ih => rw [paddedDecimal, List.length_append, ih, List.length_singleton]

variable {c : UInt8}

variable {x : Binary64Datum} {places n : ℕ}

theorem isDigit_of_mem_paddedDecimal (h : c ∈ paddedDecimal places n) : isDigit c = true := by
  induction places generalizing n with
  | zero => cases h
  | succ places ih =>
    rcases List.mem_append.mp h with h | h
    · exact ih h
    · rw [List.mem_singleton.mp h]
      exact isDigit_digitByte (Nat.mod_lt _ (by decide))

theorem decimalValue_paddedDecimal (places n : ℕ) :
    decimalValue (paddedDecimal places n) = n % 10 ^ places := by
  induction places generalizing n with
  | zero => simp [paddedDecimal, decimalValue, Nat.mod_one]
  | succ places ih =>
    have hdigit : decimalValue [digitByte (n % 10)] = n % 10 := by
      simp [decimalValue, toNat_digitByte (Nat.mod_lt n (by decide : 0 < 10))]
    rw [paddedDecimal, decimalValue_append, ih, hdigit, List.length_singleton, pow_one, pow_succ',
      Nat.mod_mul]
    ring

/-! ### Printed and read -/

/-- What comes next cannot go on a number or a word. -/
def Apart (rest : List UInt8) : Prop := ∀ c ∈ rest.head?, isSpace c = true

theorem not_isDigit_of_isSpace (h : isSpace c = true) : isDigit c = false := by
  simp only [isSpace, isDigit, Bool.or_eq_true, decide_eq_true_eq, Bool.and_eq_true,
    Bool.and_eq_false_iff, decide_eq_false_iff_not, UInt8.le_iff_toNat_le, UInt8.toNat_ofNat] at *
  rcases h with rfl | h
  · left
    decide
  · left
    have : (13 : UInt8).toNat = 13 := rfl
    have : (48 : UInt8).toNat = 48 := rfl
    omega

theorem not_isSpace_of_isDigit (h : isDigit c = true) : isSpace c = false := by
  by_contra hspace
  rw [not_isDigit_of_isSpace (Bool.of_not_eq_false hspace)] at h
  cases h

theorem mem_fixedText (h : c ∈ fixedText places n) :
    isDigit c = true ∨ c = 46 := by
  rw [fixedText] at h
  rcases List.mem_append.mp h with h | h
  · exact .inl (isDigit_of_mem_decimal h)
  · split_ifs at h
    · cases h
    · rcases List.mem_cons.mp h with rfl | h
      · exact .inr rfl
      · exact .inl (isDigit_of_mem_paddedDecimal h)

/-- What a printed number is made of: digits, a minus, a point, and the letters of `inf` and
`nan`. -/
theorem mem_printFixed {places : ℕ} (h : c ∈ printFixed places x) :
    isDigit c = true ∨ c ∈ ([45, 46, 97, 102, 105, 110] : List UInt8) := by
  have hsign : ∀ negative, c ∈ signText negative →
      c ∈ ([45, 46, 97, 102, 105, 110] : List UInt8) := by
    intro negative hc
    cases negative with
    | true =>
      rw [List.mem_singleton.mp hc]
      decide
    | false => cases hc
  cases x with
  | finite x =>
    rcases List.mem_append.mp h with h | h
    · exact .inr (hsign _ h)
    · refine (mem_fixedText h).imp_right fun hpoint => ?_
      rw [hpoint]
      decide
  | infinite negative =>
    have hinf : ∀ c ∈ ([105, 110, 102] : List UInt8),
        c ∈ ([45, 46, 97, 102, 105, 110] : List UInt8) := by simp
    exact .inr ((List.mem_append.mp h).elim (hsign _) (hinf c))
  | notANumber negative =>
    have hnan : ∀ c ∈ ([110, 97, 110] : List UInt8),
        c ∈ ([45, 46, 97, 102, 105, 110] : List UInt8) := by simp
    exact .inr ((List.mem_append.mp h).elim (hsign _) (hnan c))

theorem not_isSpace_of_mem_printFixed {places : ℕ}
    (h : c ∈ printFixed places x) : isSpace c = false := by
  have hother : ∀ c ∈ ([45, 46, 97, 102, 105, 110] : List UInt8), isSpace c = false := by
    simp [isSpace]
  exact (mem_printFixed h).elim not_isSpace_of_isDigit (hother c)

theorem printFixed_ne_nil (places : ℕ) (x : Binary64Datum) : printFixed places x ≠ [] := by
  cases x with
  | finite x => simp [printFixed, fixedText, decimal_ne_nil]
  | infinite negative => simp [printFixed]
  | notANumber negative => simp [printFixed]

variable {rest : List UInt8}

theorem takeWhile_append_of_stop (p : UInt8 → Bool) (xs : List UInt8)
    (hxs : ∀ c ∈ xs, p c = true) (hrest : ∀ c ∈ rest.head?, p c = false) :
    (xs ++ rest).takeWhile p = xs ∧ (xs ++ rest).dropWhile p = rest := by
  rw [List.takeWhile_append_of_pos hxs, List.dropWhile_append_of_pos hxs]
  cases rest with
  | nil => simp
  | cons c rest => simp [hrest c rfl]

theorem extractWord_append {word rest : List UInt8} (hne : word ≠ [])
    (hword : ∀ c ∈ word, isSpace c = false) (h : Apart rest) :
    extractWord (word ++ rest) = some (word, rest) := by
  obtain ⟨c, s, rfl⟩ := List.exists_cons_of_ne_nil hne
  have hskip : ((c :: s) ++ rest).dropWhile isSpace = (c :: s) ++ rest :=
    List.dropWhile_cons_of_neg (by rw [hword c List.mem_cons_self]; decide)
  have hstop : ∀ d ∈ rest.head?, (!isSpace d) = false := fun d hd => by rw [h d hd]; rfl
  obtain ⟨htake, hdrop⟩ := takeWhile_append_of_stop (!isSpace ·) (c :: s)
    (fun d hd => by rw [hword d hd]; rfl) hstop
  rw [extractWord, hskip, htake, hdrop, if_neg (List.cons_ne_nil _ _)]

theorem extractWord_blank (s : List UInt8) : extractWord (32 :: s) = extractWord s := by
  rw [extractWord, List.dropWhile_cons_of_pos (by decide)]
  rfl

theorem scanFraction_of_apart (h : Apart rest) :
    scanFraction rest = ([], rest) := by
  cases rest with
  | nil => rfl
  | cons c rest =>
    have hc : c ≠ 46 := by
      rintro rfl
      exact absurd (h 46 rfl) (by decide)
    rw [scanFraction, if_neg hc]

theorem scanExponent_of_apart (h : Apart rest) :
    scanExponent rest = some (0, rest) := by
  cases rest with
  | nil => rfl
  | cons c rest =>
    have hc : ¬ (c = 101 ∨ c = 69) := by
      rintro (rfl | rfl) <;> exact absurd (h _ rfl) (by decide)
    rw [scanExponent, if_neg hc]

theorem scanSign_signText (negative : Bool) {s : List UInt8}
    (hs : ∃ c rest, s = c :: rest ∧ isDigit c = true) :
    scanSign (signText negative ++ s) = (negative, s) := by
  obtain ⟨c, rest, rfl, hc⟩ := hs
  cases negative with
  | true => rfl
  | false =>
    have h45 : c ≠ 45 := by
      rintro rfl
      exact absurd hc (by decide)
    have h43 : c ≠ 43 := by
      rintro rfl
      exact absurd hc (by decide)
    exact (if_neg h45).trans (if_neg h43)

/-- The point and the digits after it. -/
theorem scanFraction_paddedDecimal (places n : ℕ) (h : Apart rest) :
    scanFraction ((if places = 0 then [] else 46 :: paddedDecimal places n) ++ rest) =
      (paddedDecimal places n, rest) := by
  by_cases hplaces : places = 0
  · subst hplaces
    exact scanFraction_of_apart h
  · obtain ⟨htake, hdrop⟩ := takeWhile_append_of_stop isDigit (paddedDecimal places n)
      (fun c hc => isDigit_of_mem_paddedDecimal hc)
      (fun c hc => not_isDigit_of_isSpace (h c hc))
    rw [if_neg hplaces, List.cons_append, scanFraction, if_pos rfl, htake, hdrop]

/-- **What is printed is read.** -/
theorem scanNumber_fixedText (negative : Bool) (places n : ℕ) (h : Apart rest) :
    scanNumber (signText negative ++ (fixedText places n ++ rest)) =
      some (negative, (n : ℚ) / 10 ^ places, rest) := by
  have hstart : ∃ c s, fixedText places n ++ rest = c :: s ∧ isDigit c = true := by
    obtain ⟨c, s, hcs⟩ := List.exists_cons_of_ne_nil (decimal_ne_nil (n / 10 ^ places))
    refine ⟨c, _, by rw [fixedText, hcs]; rfl, ?_⟩
    exact isDigit_of_mem_decimal (n := n / 10 ^ places) (hcs ▸ List.mem_cons_self)
  have hpoint : ∀ c ∈ ((if places = 0 then [] else
      46 :: paddedDecimal places (n % 10 ^ places)) ++ rest).head?, isDigit c = false := by
    intro c hc
    split_ifs at hc
    · exact not_isDigit_of_isSpace (h c hc)
    · obtain rfl := Option.some.inj hc
      decide
  obtain ⟨htake, hdrop⟩ := takeWhile_append_of_stop isDigit (decimal (n / 10 ^ places))
    (fun c hc => isDigit_of_mem_decimal hc) hpoint
  have hvalue : decimalValue (decimal (n / 10 ^ places) ++
      paddedDecimal places (n % 10 ^ places)) = n := by
    rw [decimalValue_append, decimalValue_decimal, decimalValue_paddedDecimal,
      length_paddedDecimal, Nat.mod_mod, Nat.div_add_mod']
  have hne : ¬ decimal (n / 10 ^ places) ++ paddedDecimal places (n % 10 ^ places) = [] := by
    simp [decimal_ne_nil]
  rw [scanNumber, scanSign_signText negative hstart]
  dsimp only
  rw [fixedText, List.append_assoc, htake, hdrop, scanFraction_paddedDecimal places _ h]
  dsimp only
  rw [if_neg hne, scanExponent_of_apart h, hvalue, length_paddedDecimal]
  simp [zpow_neg, div_eq_mul_inv]

/-- A double printed and read back. -/
def Binary64.roundedTo (places : ℕ) (x : Binary64) : Option Binary64 :=
  nearest x.negative ((roundEven (x.magnitude * 10 ^ places) : ℚ) / 10 ^ places)

theorem extractDouble_printFixed (places : ℕ) (x : Binary64) (h : Apart rest) :
    extractDouble (32 :: (printFixed places (.finite x) ++ rest)) =
      (x.roundedTo places).map fun y => (.finite y, rest) := by
  have hstart : ((32 :: (printFixed places (.finite x) ++ rest)).dropWhile isSpace) =
      printFixed places (.finite x) ++ rest := by
    obtain ⟨c, s, hcs⟩ := List.exists_cons_of_ne_nil (printFixed_ne_nil places (.finite x))
    have hc : isSpace c = false := not_isSpace_of_mem_printFixed (hcs ▸ List.mem_cons_self)
    rw [List.dropWhile_cons_of_pos (by decide), hcs, List.cons_append,
      List.dropWhile_cons_of_neg (by simp [hc])]
  rw [extractDouble, hstart, printFixed, List.append_assoc, scanNumber_fixedText _ _ _ h]
  rfl

variable {x y : Binary64} {places : ℕ}

/-- **A double printed and read back.** It is within a half of the last digit printed, and printing
it again gives the same digits. -/
theorem Binary64.roundedTo_spec (hplaces : places ≤ 9) {x : Binary64} (h : x.magnitude ≤ 10 ^ 6) :
    ∃ y, x.roundedTo places = some y ∧ y.negative = x.negative ∧
      |y.magnitude - (roundEven (x.magnitude * 10 ^ places) : ℚ) / 10 ^ places| ≤ 1 / 2 ^ 34 ∧
      roundEven (y.magnitude * 10 ^ places) = roundEven (x.magnitude * 10 ^ places) := by
  have hpow : (0 : ℚ) < 10 ^ places := by positivity
  have hpow' : (10 : ℚ) ^ places ≤ 10 ^ 9 := pow_le_pow_right₀ (by norm_num) hplaces
  have hunits : (roundEven (x.magnitude * 10 ^ places) : ℚ) ≤ 10 ^ 6 * 10 ^ places := by
    have hle : roundEven (x.magnitude * 10 ^ places) ≤ 10 ^ 6 * 10 ^ places :=
      roundEven_le (by push_cast; exact mul_le_mul_of_nonneg_right h hpow.le)
    exact_mod_cast hle
  have hmag : (roundEven (x.magnitude * 10 ^ places) : ℚ) / 10 ^ places < 2 ^ 20 := by
    rw [div_lt_iff₀ hpow]
    refine hunits.trans_lt (mul_lt_mul_of_pos_right (by norm_num) hpow)
  obtain ⟨y, hy, hneg, hnear⟩ := nearest_near x.negative (by positivity) hmag
  refine ⟨y, hy, hneg, hnear, ?_⟩
  refine roundEven_eq_of_near (mul_nonneg y.magnitude_nonneg hpow.le) ?_
  calc |y.magnitude * 10 ^ places - (roundEven (x.magnitude * 10 ^ places) : ℚ)|
      = |y.magnitude - (roundEven (x.magnitude * 10 ^ places) : ℚ) / 10 ^ places| *
          10 ^ places := by
        rw [← abs_of_pos hpow, ← abs_mul, sub_mul, abs_of_pos hpow, div_mul_cancel₀ _ hpow.ne']
    _ ≤ 1 / 2 ^ 34 * 10 ^ 9 := mul_le_mul hnear hpow' hpow.le (by norm_num)
    _ < 1 / 2 := by norm_num

/-- Without digits after the point it is a whole number. -/
theorem Binary64.roundedTo_zero (h : x.magnitude ≤ 10 ^ 6)
    (hy : x.roundedTo 0 = some y) : y.magnitude = roundEven x.magnitude := by
  have hlt : roundEven x.magnitude < 2 ^ 20 :=
    (roundEven_le (n := 10 ^ 6) (by exact_mod_cast h)).trans_lt (by norm_num)
  obtain ⟨z, hz, -, hmag⟩ := nearest_natCast x.negative hlt
  rw [roundedTo, pow_zero, mul_one, div_one, hz] at hy
  obtain rfl := Option.some.inj hy
  exact hmag

theorem printFixed_roundedTo (hplaces : places ≤ 9)
    (h : x.magnitude ≤ 10 ^ 6) (hy : x.roundedTo places = some y) :
    printFixed places (.finite y) = printFixed places (.finite x) := by
  obtain ⟨z, hz, hneg, -, hunits⟩ := Binary64.roundedTo_spec hplaces h
  obtain rfl := Option.some.inj (hy.symm.trans hz)
  rw [printFixed, printFixed, hneg, hunits]

end RtaTool
