import RtaTool.Lib.Numerals
import Mathlib.Analysis.SpecialFunctions.Pow.Real
import Mathlib.Data.Nat.Nth

/-!
# SHA-256

The hash of FIPS 180-4 on bit strings, the most significant bit first, in the standard's own terms:
the padding is the smallest that fits, the constants are what stands behind the point of the roots
of the first primes, and the schedule is a recurrence. Nothing here is meant to be run.

## Main definitions

* `bitsOf`, `ofBits` -- numbers as bit strings
* `zeroCount`, `padded`, `blockWord` -- section 5
* `ch`, `maj`, `bigSigma0`, `bigSigma1`, `sigma0`, `sigma1`, `constant` -- section 4
* `schedule`, `round`, `compress`, `hash` -- section 6.2

## Main results

* `bitsOf_add`, `ofBits_append`, `ofBits_bitsOf` -- bit strings of two parts
* `zeroCount_eq` -- how many zeros fill a block up
* `rootWord_eq` -- what stands behind the point, by comparing powers
* `nth_prime_eq` -- the first primes
-/

namespace RtaTool

namespace Sha256

/-! ### Bit strings -/

/-- The bits of a number, in so many places. -/
def bitsOf (places n : ℕ) : List Bool := (List.range places).map fun i => n.testBit (places - 1 - i)

/-- The number that a bit string is. -/
def ofBits (bits : List Bool) : ℕ := bits.foldl (fun n bit => 2 * n + bit.toNat) 0

/-- The bits of bytes. -/
def bytesToBits (bytes : List UInt8) : List Bool := bytes.flatMap fun byte => bitsOf 8 byte.toNat

/-- A hexadecimal digit, in lower case. -/
def nibbleDigit (n : ℕ) : UInt8 := "0123456789abcdef".toUTF8.data.toList.getD n 0

/-- A bit string in hexadecimal digits. -/
def hexText : List Bool → List UInt8
  | a :: b :: c :: d :: rest => nibbleDigit (ofBits [a, b, c, d]) :: hexText rest
  | _ => []

/-! ### Functions and constants -/

/-- A word of 32 bits. -/
abbrev Word : Type := BitVec 32

/-- `Ch(x, y, z)`. -/
def ch (x y z : Word) : Word := (x &&& y) ^^^ (~~~x &&& z)

/-- `Maj(x, y, z)`. -/
def maj (x y z : Word) : Word := (x &&& y) ^^^ (x &&& z) ^^^ (y &&& z)

/-- `Σ₀(x)`. -/
def bigSigma0 (x : Word) : Word := x.rotateRight 2 ^^^ x.rotateRight 13 ^^^ x.rotateRight 22

/-- `Σ₁(x)`. -/
def bigSigma1 (x : Word) : Word := x.rotateRight 6 ^^^ x.rotateRight 11 ^^^ x.rotateRight 25

/-- `σ₀(x)`. -/
def sigma0 (x : Word) : Word := x.rotateRight 7 ^^^ x.rotateRight 18 ^^^ x >>> 3

/-- `σ₁(x)`. -/
def sigma1 (x : Word) : Word := x.rotateRight 17 ^^^ x.rotateRight 19 ^^^ x >>> 10

/-- The first 32 bits of the fractional part of a root. -/
noncomputable def rootWord (degree n : ℕ) : ℕ :=
  ⌊Int.fract ((n : ℝ) ^ (1 / degree : ℝ)) * 2 ^ 32⌋₊

/-- `K_t`: of the cube roots of the first sixty-four primes. -/
noncomputable def constant (t : ℕ) : Word := BitVec.ofNat 32 (rootWord 3 (Nat.nth Nat.Prime t))

/-! ### Preprocessing -/

/-- The number of zeros: the smallest with which the length is 448 modulo 512. -/
noncomputable def zeroCount (length : ℕ) : ℕ := sInf {k | (length + 1 + k) % 512 = 448}

/-- The padded message: a one, zeros, and the length in 64 bits. -/
noncomputable def padded (message : List Bool) : List Bool :=
  message ++ [true] ++ List.replicate (zeroCount message.length) false ++ bitsOf 64 message.length

/-- Word `j` of block `i`. -/
def blockWord (message : List Bool) (i j : ℕ) : Word :=
  BitVec.ofNat 32 (ofBits ((message.drop (512 * i + 32 * j)).take 32))

/-- Eight words: a hash value, or the working variables. -/
structure Words where
  a : Word
  b : Word
  c : Word
  d : Word
  e : Word
  f : Word
  g : Word
  h : Word

namespace Words

def toList (v : Words) : List Word := [v.a, v.b, v.c, v.d, v.e, v.f, v.g, v.h]

/-- Word by word. -/
def add (v w : Words) : Words :=
  ⟨v.a + w.a, v.b + w.b, v.c + w.c, v.d + w.d, v.e + w.e, v.f + w.f, v.g + w.g, v.h + w.h⟩

end Words

/-- The initial hash value: of the square roots of the first eight primes. -/
noncomputable def initial : Words :=
  let word (j : ℕ) : Word := BitVec.ofNat 32 (rootWord 2 (Nat.nth Nat.Prime j))
  ⟨word 0, word 1, word 2, word 3, word 4, word 5, word 6, word 7⟩

/-! ### The hash -/

/-- The message schedule of a block. -/
def schedule (block : ℕ → Word) (t : ℕ) : Word :=
  if t < 16 then block t
  else
    sigma1 (schedule block (t - 2)) + schedule block (t - 7) + sigma0 (schedule block (t - 15)) +
      schedule block (t - 16)
termination_by t

/-- Round `t`. -/
noncomputable def round (w : ℕ → Word) (v : Words) (t : ℕ) : Words :=
  let t1 := v.h + bigSigma1 v.e + ch v.e v.f v.g + constant t + w t
  let t2 := bigSigma0 v.a + maj v.a v.b v.c
  ⟨t1 + t2, v.a, v.b, v.c, v.d + t1, v.e, v.f, v.g⟩

/-- A block, into the hash value so far. -/
noncomputable def compress (h : Words) (block : ℕ → Word) : Words :=
  ((List.range 64).foldl (round (schedule block)) h).add h

/-- The hash value of a message. -/
noncomputable def value (message : List Bool) : Words :=
  (List.range ((padded message).length / 512)).foldl
    (fun h i => compress h (blockWord (padded message) i)) initial

/-- The digest, of 256 bits. -/
noncomputable def hash (message : List Bool) : List Bool :=
  (value message).toList.flatMap fun word => bitsOf 32 word.toNat

/-! ### Bit strings of two parts -/

@[simp] theorem length_bitsOf (places n : ℕ) : (bitsOf places n).length = places := by
  simp [bitsOf]

/-- The upper places first. -/
theorem bitsOf_add (upper lower n : ℕ) :
    bitsOf (upper + lower) n = bitsOf upper (n >>> lower) ++ bitsOf lower n := by
  refine List.ext_getElem (by simp) fun i hi _ => ?_
  rw [length_bitsOf] at hi
  rw [List.getElem_append]
  split_ifs with hupper
  · rw [length_bitsOf] at hupper
    simp only [bitsOf, List.getElem_map, List.getElem_range, Nat.testBit_shiftRight]
    congr 1
    omega
  · rw [length_bitsOf] at hupper
    simp only [bitsOf, List.getElem_map, List.getElem_range, List.length_map, List.length_range]
    congr 1
    omega

/-- Places above the ones that are asked for do not matter. -/
theorem bitsOf_mod (places n : ℕ) : bitsOf places (n % 2 ^ places) = bitsOf places n := by
  refine List.map_congr_left fun i hi => ?_
  rw [List.mem_range] at hi
  rw [Nat.testBit_mod_two_pow, decide_eq_true (by omega), Bool.true_and]

theorem foldl_ofBits (bits : List Bool) (n : ℕ) :
    bits.foldl (fun n bit => 2 * n + bit.toNat) n = n * 2 ^ bits.length + ofBits bits := by
  induction bits generalizing n with
  | nil => simp [ofBits]
  | cons bit bits ih =>
    rw [ofBits, List.foldl_cons, List.foldl_cons, ih, ih (2 * 0 + _), List.length_cons, pow_succ]
    ring

theorem ofBits_append (xs ys : List Bool) :
    ofBits (xs ++ ys) = ofBits xs * 2 ^ ys.length + ofBits ys := by
  rw [ofBits, List.foldl_append, foldl_ofBits, ← ofBits]

theorem ofBits_bitsOf (places n : ℕ) : ofBits (bitsOf places n) = n % 2 ^ places := by
  induction places generalizing n with
  | zero => simp [bitsOf, ofBits, Nat.mod_one]
  | succ places ih =>
    have hbit : ofBits (bitsOf 1 n) = n % 2 := by
      rcases Nat.mod_two_eq_zero_or_one n with h | h
      · simp [bitsOf, ofBits, Nat.testBit_zero, h]
      · simp [bitsOf, ofBits, Nat.testBit_zero, h]
    rw [bitsOf_add places 1, ofBits_append, ih, hbit, length_bitsOf, Nat.shiftRight_eq_div_pow,
      pow_one, pow_succ, Nat.mul_comm (2 ^ places) 2, Nat.mod_mul]
    omega

theorem bytesToBits_append (xs ys : List UInt8) :
    bytesToBits (xs ++ ys) = bytesToBits xs ++ bytesToBits ys := List.flatMap_append

@[simp] theorem length_bytesToBits (xs : List UInt8) : (bytesToBits xs).length = 8 * xs.length := by
  induction xs with
  | nil => rfl
  | cons x xs ih =>
    rw [← List.singleton_append, bytesToBits_append, List.length_append, ih, List.length_append]
    simp [bytesToBits]
    ring

theorem bytesToBits_drop (k : ℕ) (xs : List UInt8) :
    (bytesToBits xs).drop (8 * k) = bytesToBits (xs.drop k) := by
  rcases Nat.lt_or_ge xs.length k with hlt | hle
  · rw [List.drop_eq_nil_of_le (by rw [length_bytesToBits]; omega), List.drop_eq_nil_of_le hlt.le]
    rfl
  · conv_lhs => rw [← List.take_append_drop k xs, bytesToBits_append]
    exact List.drop_left' (by rw [length_bytesToBits, List.length_take, Nat.min_eq_left hle])

theorem bytesToBits_take (k : ℕ) (xs : List UInt8) :
    (bytesToBits xs).take (8 * k) = bytesToBits (xs.take k) := by
  rcases Nat.lt_or_ge xs.length k with hlt | hle
  · rw [List.take_of_length_le (by rw [length_bytesToBits]; omega), List.take_of_length_le hlt.le]
  · conv_lhs => rw [← List.take_append_drop k xs, bytesToBits_append]
    exact List.take_left' (by rw [length_bytesToBits, List.length_take, Nat.min_eq_left hle])

theorem ofBits_bytesToBits (xs : List UInt8) :
    ofBits (bytesToBits xs) = xs.foldl (fun n byte => 256 * n + byte.toNat) 0 := by
  induction xs using List.reverseRecOn with
  | nil => rfl
  | append_singleton xs x ih =>
    have hbyte : ofBits (bytesToBits [x]) = x.toNat := by
      have hbits : bytesToBits [x] = bitsOf 8 x.toNat := by simp [bytesToBits]
      rw [hbits, ofBits_bitsOf, Nat.mod_eq_of_lt x.toNat_lt]
    rw [bytesToBits_append, ofBits_append, ih, hbyte, length_bytesToBits, List.foldl_append,
      List.length_singleton, Nat.mul_comm]
    rfl

theorem hexText_bitsOf_append (n : ℕ) (rest : List Bool) :
    hexText (bitsOf 4 n ++ rest) = nibbleDigit (n % 16) :: hexText rest := by
  have hdigit := ofBits_bitsOf 4 n
  rw [show (2 : ℕ) ^ 4 = 16 from rfl] at hdigit
  rw [← hdigit]
  rfl

/-! ### How many zeros -/

theorem zeroCount_eq (length : ℕ) : zeroCount length = (959 - length % 512) % 512 := by
  refine IsLeast.csInf_eq ⟨?_, fun k hk => ?_⟩
  · show (length + 1 + (959 - length % 512) % 512) % 512 = 448
    omega
  · have hk' : (length + 1 + k) % 512 = 448 := hk
    omega

/-! ### The constants -/

/-- What stands behind the point of a root, by comparing powers. -/
theorem rootWord_eq {degree n a k : ℕ} (hdegree : degree ≠ 0) (hk : k < 2 ^ 32)
    (hle : (a * 2 ^ 32 + k) ^ degree ≤ n * (2 ^ 32) ^ degree)
    (hlt : n * (2 ^ 32) ^ degree < (a * 2 ^ 32 + k + 1) ^ degree) : rootWord degree n = k := by
  rw [rootWord, one_div]
  generalize hroot : (n : ℝ) ^ ((degree : ℝ)⁻¹) = r
  have hnonneg : 0 ≤ r := hroot ▸ Real.rpow_nonneg (Nat.cast_nonneg n) _
  have hpow : (r * 2 ^ 32) ^ degree = ((n * (2 ^ 32) ^ degree : ℕ) : ℝ) := by
    rw [mul_pow, ← hroot, Real.rpow_inv_natCast_pow (Nat.cast_nonneg n) hdegree]
    push_cast
    ring
  have hscaled : (0 : ℝ) ≤ r * 2 ^ 32 := mul_nonneg hnonneg (by positivity)
  have hlower : ((a * 2 ^ 32 + k : ℕ) : ℝ) ≤ r * 2 ^ 32 := by
    refine le_of_pow_le_pow_left₀ hdegree hscaled ?_
    rw [hpow]
    exact_mod_cast hle
  have hupper : r * 2 ^ 32 < ((a * 2 ^ 32 + k + 1 : ℕ) : ℝ) := by
    refine lt_of_pow_lt_pow_left₀ degree (Nat.cast_nonneg _) ?_
    rw [hpow]
    exact_mod_cast hlt
  have hk' : ((k : ℝ) + 1) ≤ 2 ^ 32 := by exact_mod_cast hk
  push_cast at hlower hupper
  have hwhole : ⌊r⌋ = (a : ℤ) := by
    rw [Int.floor_eq_iff, Int.cast_natCast]
    constructor <;> nlinarith [Nat.cast_nonneg (α := ℝ) k]
  rw [Int.fract, hwhole, Int.cast_natCast, Nat.floor_eq_iff (by nlinarith)]
  constructor <;> linarith

/-- The first sixty-four primes. -/
def firstPrimes : List ℕ :=
  [2, 3, 5, 7, 11, 13, 17, 19, 23, 29, 31, 37, 41, 43, 47, 53, 59, 61, 67, 71, 73, 79, 83, 89, 97,
    101, 103, 107, 109, 113, 127, 131, 137, 139, 149, 151, 157, 163, 167, 173, 179, 181, 191, 193,
    197, 199, 211, 223, 227, 229, 233, 239, 241, 251, 257, 263, 269, 271, 277, 281, 283, 293, 307,
    311]

theorem filter_prime_range : (List.range 312).filter (fun n => n.Prime) = firstPrimes := by
  decide +kernel

theorem nth_of_filter_range {p : ℕ → Prop} [DecidablePred p] {m n : ℕ} {found : List ℕ}
    (hfound : (List.range m).filter (fun i => p i) = found) (hn : n ∈ found) :
    Nat.nth p (found.countP fun i => i < n) = n := by
  have hmem := List.mem_filter.mp (hfound ▸ hn)
  have hm : n ≤ m := (List.mem_range.mp hmem.1).le
  have hcount : Nat.count p n = found.countP fun i => i < n := by
    rw [Nat.count, ← hfound, List.countP_filter]
    obtain ⟨d, rfl⟩ := Nat.exists_eq_add_of_le hm
    rw [List.range_add, List.countP_append, List.countP_map]
    have hafter : (List.range d).countP
        ((fun i => decide (i < n) && decide (p i)) ∘ fun i => n + i) = 0 := by
      rw [List.countP_eq_zero]
      intro i _
      simp
    rw [hafter, Nat.add_zero]
    refine List.countP_congr fun i hi => ?_
    simp [List.mem_range.mp hi]
  rw [← hcount]
  exact Nat.nth_count (of_decide_eq_true hmem.2)

theorem nth_prime_eq {t : ℕ} (ht : t < 64) : Nat.nth Nat.Prime t = firstPrimes.getD t 0 := by
  have hcounts : ∀ t < 64, firstPrimes.getD t 0 ∈ firstPrimes ∧
      (firstPrimes.countP fun i => i < firstPrimes.getD t 0) = t := by decide +kernel
  obtain ⟨hmem, hcount⟩ := hcounts t ht
  have hnth := nth_of_filter_range filter_prime_range hmem
  rwa [hcount] at hnth

theorem constant_eq {t a k : ℕ} (ht : t < 64) (hk : k < 2 ^ 32)
    (hle : (a * 2 ^ 32 + k) ^ 3 ≤ firstPrimes.getD t 0 * (2 ^ 32) ^ 3)
    (hlt : firstPrimes.getD t 0 * (2 ^ 32) ^ 3 < (a * 2 ^ 32 + k + 1) ^ 3) :
    constant t = BitVec.ofNat 32 k := by
  rw [constant, nth_prime_eq ht, rootWord_eq (by decide) hk hle hlt]

end Sha256

end RtaTool
