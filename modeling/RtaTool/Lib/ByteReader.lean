import Mathlib.Data.Nat.Bitwise

/-!
# Readers over a span of bytes

A parser that walks a span holds a pointer and a length, and every access through the pointer is
its own responsibility. A reader here is a function from the bytes that are left to one of three
outcomes: a value and what is left, a refusal, or a read past the end. The third is what a memory
error would be, so that no reader does it is a theorem and not a convention.

A reader *parses* a relation between values and byte strings when it never reads past the end and
accepts exactly the strings of the relation, whatever follows them. That is one equivalence for
both directions of a codec: what is written is read back, and what is read was so written.

## Main definitions

* `ByteReader` and its accesses `remaining`, `byteAt`, `bytesAt`, `subspan`, `refuseIf`, `readBytes`
* `ByteReader.Parses` -- the relation a reader accepts
* `u32Bytes`, `readU32`, `readN` -- little-endian words, and a counted row of values

## Main results

* `ByteReader.Parses.bind` -- readers in sequence parse the concatenation
* `readU32_parses`, `readN_parses`
-/

namespace RtaTool

/-- A read past the end of the span. -/
inductive PastEnd
  | pastEnd
  deriving DecidableEq

/-- A reader: the value and the bytes left, `none` where it refuses. -/
def ByteReader (α : Type) : Type := List UInt8 → Except PastEnd (Option (α × List UInt8))

namespace ByteReader

variable {α β : Type}

instance : Monad ByteReader where
  pure x := fun s => .ok (some (x, s))
  bind r k := fun s =>
    match r s with
    | .ok (some (x, rest)) => k x rest
    | .ok none => .ok none
    | .error e => .error e

variable {r : ByteReader α}

variable {k : α → ByteReader β}

theorem bind_of_refuse {s : List UInt8} (h : r s = .ok none) : (r >>= k) s = .ok none := by
  show (match r s with
    | .ok (some (x, rest)) => k x rest
    | .ok none => .ok none
    | .error e => .error e) = _
  rw [h]

theorem bind_of_value {s rest : List UInt8} {x : α}
    (h : r s = .ok (some (x, rest))) : (r >>= k) s = k x rest := by
  show (match r s with
    | .ok (some (x, rest)) => k x rest
    | .ok none => .ok none
    | .error e => .error e) = _
  rw [h]

/-! ### Accesses -/

/-- `in.size()`. -/
def remaining : ByteReader ℕ := fun s => .ok (some (s.length, s))

/-- `in[i]`. -/
def byteAt (i : ℕ) : ByteReader UInt8 := fun s =>
  match s[i]? with
  | some b => .ok (some (b, s))
  | none => .error .pastEnd

/-- The `n` bytes from the pointer on. -/
def bytesAt (n : ℕ) : ByteReader (List UInt8) := fun s =>
  if n ≤ s.length then .ok (some (s.take n, s)) else .error .pastEnd

/-- `in = in.subspan(n)`. -/
def subspan (n : ℕ) : ByteReader Unit := fun s =>
  if n ≤ s.length then .ok (some ((), s.drop n)) else .error .pastEnd

/-- `if (p) return Malformed;` -/
def refuseIf (p : Prop) [Decidable p] : ByteReader Unit := fun s =>
  if p then .ok none else .ok (some ((), s))

/-! ### What a reader accepts -/

/-- The reader stays within its bytes, and accepts exactly the byte strings `R` gives a value,
whatever follows them. -/
structure Parses (r : ByteReader α) (R : α → List UInt8 → Prop) : Prop where
  inBounds : ∀ s e, r s ≠ .error e
  accepts : ∀ s x rest, r s = .ok (some (x, rest)) ↔ ∃ bs, R x bs ∧ s = bs ++ rest

theorem Parses.congr {R R' : α → List UInt8 → Prop} (h : r.Parses R)
    (hR : ∀ x bs, R x bs ↔ R' x bs) : r.Parses R' where
  inBounds := h.inBounds
  accepts s x rest := by simp only [h.accepts, hR]

theorem Parses.pure (x : α) : (pure x : ByteReader α).Parses fun y bs => y = x ∧ bs = [] where
  inBounds s e h := by cases h
  accepts s y rest := by
    show Except.ok (some (x, s)) = Except.ok (some (y, rest)) ↔ _
    constructor
    · intro h
      cases h
      exact ⟨[], ⟨rfl, rfl⟩, rfl⟩
    · rintro ⟨_, ⟨rfl, rfl⟩, rfl⟩
      rfl

theorem Parses.refuseIf (p : Prop) [Decidable p] :
    (refuseIf p).Parses fun _ bs => ¬ p ∧ bs = [] where
  inBounds s e h := by
    rw [ByteReader.refuseIf] at h
    split at h <;> cases h
  accepts s _ rest := by
    rw [ByteReader.refuseIf]
    by_cases hp : p
    · simp [hp]
    · simp [hp]

/-- Two readers in sequence parse the concatenation of what they parse. -/
theorem Parses.bind {R : α → List UInt8 → Prop} {K : α → β → List UInt8 → Prop} (hr : r.Parses R)
    (hk : ∀ x bs, R x bs → (k x).Parses (K x)) :
    (r >>= k).Parses fun y bs => ∃ x bs₁ bs₂, R x bs₁ ∧ K x y bs₂ ∧ bs = bs₁ ++ bs₂ where
  inBounds s e h := by
    replace h : (match r s with
      | .ok (some (x, rest)) => k x rest
      | .ok none => .ok none
      | .error e => .error e) = .error e := h
    split at h
    · rename_i x rest hx
      obtain ⟨bs, hbs, -⟩ := (hr.accepts s x rest).mp hx
      exact (hk x bs hbs).inBounds rest e h
    · cases h
    · rename_i e' he
      exact hr.inBounds s e' he
  accepts s y rest := by
    show (match r s with
      | .ok (some (x, rest)) => k x rest
      | .ok none => .ok none
      | .error e => .error e) = _ ↔ _
    constructor
    · intro h
      split at h
      · rename_i x mid hx
        obtain ⟨bs₁, h₁, rfl⟩ := (hr.accepts s x mid).mp hx
        obtain ⟨bs₂, h₂, rfl⟩ := ((hk x bs₁ h₁).accepts mid y rest).mp h
        exact ⟨bs₁ ++ bs₂, ⟨x, bs₁, bs₂, h₁, h₂, rfl⟩, (List.append_assoc ..).symm⟩
      · cases h
      · cases h
    · rintro ⟨_, ⟨x, bs₁, bs₂, h₁, h₂, rfl⟩, rfl⟩
      rw [(hr.accepts _ x (bs₂ ++ rest)).mpr ⟨bs₁, h₁, List.append_assoc ..⟩]
      exact ((hk x bs₁ h₁).accepts _ y rest).mpr ⟨bs₂, h₂, rfl⟩

/-- The value in `x`, or a refusal. -/
def ofOption (x : Option α) : ByteReader α := fun s => .ok (x.map fun y => (y, s))

theorem Parses.ofOption (x : Option α) :
    (ofOption x).Parses fun y bs => x = some y ∧ bs = [] where
  inBounds s e h := by cases h
  accepts s y rest := by
    cases x with
    | none => simp [ByteReader.ofOption]
    | some x => simp [ByteReader.ofOption]

/-- A size check, a look at the first `n` bytes and a step over them. -/
theorem parses_fixed {f : List UInt8 → α} (n : ℕ) (hshort : ∀ s, s.length < n → r s = .ok none)
    (hlong : ∀ s, n ≤ s.length → r s = .ok (some (f (s.take n), s.drop n))) :
    r.Parses fun x bs => bs.length = n ∧ x = f bs where
  inBounds s e h := by
    by_cases hn : s.length < n
    · rw [hshort s hn] at h
      cases h
    · rw [hlong s (not_lt.mp hn)] at h
      cases h
  accepts s x rest := by
    constructor
    · intro h
      by_cases hn : s.length < n
      · rw [hshort s hn] at h
        cases h
      · rw [hlong s (not_lt.mp hn)] at h
        cases h
        exact ⟨s.take n, ⟨by rw [List.length_take]; omega, rfl⟩, (List.take_append_drop n s).symm⟩
    · rintro ⟨bs, ⟨hlen, rfl⟩, rfl⟩
      rw [hlong _ (by rw [List.length_append]; omega), List.take_left' hlen, List.drop_left' hlen]

/-- The next `n` bytes, where there are as many. -/
def readBytes (n : ℕ) : ByteReader (List UInt8) := do
  refuseIf ((← remaining) < n)
  let bs ← bytesAt n
  subspan n
  return bs

theorem readBytes_parses (n : ℕ) : (readBytes n).Parses fun x bs => bs.length = n ∧ x = bs := by
  refine parses_fixed (f := id) n (fun s hs => ?_) fun s hs => ?_
  · exact bind_of_refuse (r := refuseIf (s.length < n)) (if_pos hs)
  · rw [readBytes, bind_of_value rfl, bind_of_value (if_neg (not_lt.mpr hs)),
      bind_of_value (if_pos hs), bind_of_value (if_pos hs)]
    rfl

end ByteReader

open ByteReader

/-! ### Little-endian words -/

/-- A word as four bytes, the least significant first. -/
def u32Bytes (v : UInt32) : List UInt8 :=
  ([0, 8, 16, 24] : List UInt32).map fun shift => ((v >>> shift) &&& 0xFF).toUInt8

@[simp] theorem length_u32Bytes (v : UInt32) : (u32Bytes v).length = 4 := rfl

/-- A word from four bytes, where there are four. -/
def readU32 : ByteReader UInt32 := do
  refuseIf ((← remaining) < 4)
  let v ← ([(0, 0), (1, 8), (2, 16), (3, 24)] : List (ℕ × UInt32)).foldlM
    (fun v i => do return v ||| ((← byteAt i.1).toUInt32 <<< i.2)) 0
  subspan 4
  return v

/-- The word four bytes spell. -/
def u32OfBytes : List UInt8 → UInt32
  | [b₀, b₁, b₂, b₃] =>
    (0 : UInt32) ||| (b₀.toUInt32 <<< 0) ||| (b₁.toUInt32 <<< 8) ||| (b₂.toUInt32 <<< 16) |||
      (b₃.toUInt32 <<< 24)
  | _ => 0

/-- Bytes below one another in a word do not overlap: the disjunction is the sum. -/
theorem toNat_u32OfBytes (b₀ b₁ b₂ b₃ : UInt8) :
    (u32OfBytes [b₀, b₁, b₂, b₃]).toNat =
      b₀.toNat + 2 ^ 8 * b₁.toNat + 2 ^ 16 * b₂.toNat + 2 ^ 24 * b₃.toNat := by
  have h₀ := b₀.toNat_lt
  have h₁ := b₁.toNat_lt
  have h₂ := b₂.toNat_lt
  have h₃ := b₃.toNat_lt
  have hor : ∀ (k : ℕ) {a b : ℕ}, a < 2 ^ k → a ||| b * 2 ^ k = a + 2 ^ k * b := by
    intro k a b ha
    rw [Nat.lor_comm, Nat.mul_comm, ← Nat.two_pow_add_eq_or_of_lt ha, Nat.add_comm]
  have hshift : ∀ (b : UInt8) (k : ℕ), b.toNat * 2 ^ k < 2 ^ 32 →
      (b.toNat <<< k) % 2 ^ 32 = b.toNat * 2 ^ k := by
    intro b k hb
    rw [Nat.shiftLeft_eq, Nat.mod_eq_of_lt hb]
  show (((0 ||| (b₀.toNat <<< 0) % 2 ^ 32) ||| (b₁.toNat <<< 8) % 2 ^ 32) |||
    (b₂.toNat <<< 16) % 2 ^ 32) ||| (b₃.toNat <<< 24) % 2 ^ 32 = _
  rw [hshift _ _ (by omega), hshift _ _ (by omega), hshift _ _ (by omega), hshift _ _ (by omega),
    Nat.zero_or, Nat.pow_zero, Nat.mul_one, hor 8 (by omega), hor 16 (by omega), hor 24 (by omega)]

theorem u32OfBytes_u32Bytes (v : UInt32) : u32OfBytes (u32Bytes v) = v := by
  have hbyte : ∀ k : ℕ, ((v.toNat >>> k) &&& 255) % 2 ^ 8 = v.toNat / 2 ^ k % 2 ^ 8 := by
    intro k
    rw [show (255 : ℕ) = 2 ^ 8 - 1 from rfl, Nat.and_two_pow_sub_one_eq_mod, Nat.mod_mod,
      Nat.shiftRight_eq_div_pow]
  refine UInt32.toNat_inj.mp ((toNat_u32OfBytes _ _ _ _).trans ?_)
  show ((v.toNat >>> 0) &&& 255) % 2 ^ 8 + 2 ^ 8 * (((v.toNat >>> 8) &&& 255) % 2 ^ 8) +
    2 ^ 16 * (((v.toNat >>> 16) &&& 255) % 2 ^ 8) + 2 ^ 24 * (((v.toNat >>> 24) &&& 255) % 2 ^ 8) = _
  have hv := v.toNat_lt
  rw [hbyte, hbyte, hbyte, hbyte]
  omega

theorem u32Bytes_u32OfBytes {bs : List UInt8} (h : bs.length = 4) :
    u32Bytes (u32OfBytes bs) = bs := by
  obtain ⟨b₀, b₁, b₂, b₃, rfl⟩ : ∃ b₀ b₁ b₂ b₃, bs = [b₀, b₁, b₂, b₃] := by
    match bs, h with
    | [b₀, b₁, b₂, b₃], _ => exact ⟨b₀, b₁, b₂, b₃, rfl⟩
  -- both sides spell the same number, and four bytes are determined by the number they spell
  have hsum := congrArg UInt32.toNat (u32OfBytes_u32Bytes (u32OfBytes [b₀, b₁, b₂, b₃]))
  obtain ⟨c₀, c₁, c₂, c₃, hc⟩ : ∃ c₀ c₁ c₂ c₃,
      u32Bytes (u32OfBytes [b₀, b₁, b₂, b₃]) = [c₀, c₁, c₂, c₃] := ⟨_, _, _, _, rfl⟩
  rw [hc] at hsum ⊢
  rw [toNat_u32OfBytes, toNat_u32OfBytes] at hsum
  have hb := fun b : UInt8 => b.toNat_lt
  have hb₀ := hb b₀
  have hb₁ := hb b₁
  have hb₂ := hb b₂
  have hb₃ := hb b₃
  have hc₀ := hb c₀
  have hc₁ := hb c₁
  have hc₂ := hb c₂
  have hc₃ := hb c₃
  simp only [List.cons.injEq, and_true, ← UInt8.toNat_inj]
  omega

/-- The reader accepts exactly the four bytes of a word. -/
theorem readU32_parses : readU32.Parses fun v bs => bs = u32Bytes v := by
  refine (parses_fixed (f := u32OfBytes) 4 ?_ ?_).congr fun v bs => ?_
  · intro s hs
    exact bind_of_refuse (r := refuseIf (s.length < 4)) (if_pos hs)
  · intro s hs
    match s, hs with
    | b₀ :: b₁ :: b₂ :: b₃ :: rest, _ => rfl
  · constructor
    · rintro ⟨hlen, rfl⟩
      exact (u32Bytes_u32OfBytes hlen).symm
    · rintro rfl
      exact ⟨length_u32Bytes v, (u32OfBytes_u32Bytes v).symm⟩

/-- `n` values in a row. -/
def readN {α : Type} (r : ByteReader α) : ℕ → ByteReader (List α)
  | 0 => return []
  | n + 1 => do
    let x ← r
    let xs ← readN r n
    return x :: xs

theorem readN_parses {α : Type} {r : ByteReader α} {enc : α → List UInt8}
    (h : r.Parses fun x bs => bs = enc x) (n : ℕ) :
    (readN r n).Parses fun xs bs => xs.length = n ∧ bs = xs.flatMap enc := by
  induction n with
  | zero =>
    refine (Parses.pure []).congr fun xs bs => ?_
    constructor
    · rintro ⟨rfl, rfl⟩
      exact ⟨rfl, rfl⟩
    · rintro ⟨hlen, rfl⟩
      rw [List.eq_nil_of_length_eq_zero hlen]
      exact ⟨rfl, rfl⟩
  | succ n ih =>
    refine (h.bind fun x _ _ => ih.bind fun xs _ _ => Parses.pure (x :: xs)).congr fun ys bs => ?_
    constructor
    · rintro ⟨x, _, _, rfl, ⟨xs, _, _, ⟨rfl, rfl⟩, ⟨rfl, rfl⟩, rfl⟩, rfl⟩
      exact ⟨rfl, by rw [List.flatMap_cons, List.append_nil]⟩
    · rintro ⟨hlen, rfl⟩
      obtain ⟨x, xs, rfl⟩ := List.exists_cons_of_length_eq_add_one hlen
      exact ⟨x, _, _, rfl, ⟨xs, _, [], ⟨by simpa using hlen, rfl⟩, ⟨rfl, rfl⟩, rfl⟩,
        by rw [List.flatMap_cons, List.append_nil]⟩

end RtaTool
