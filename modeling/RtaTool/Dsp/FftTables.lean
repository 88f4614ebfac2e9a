import RtaTool.Dsp.RealFft

/-!
# The tables of the transforms

`Fft` and `RealFft` as the objects that their constructors build: the permutation and the twiddles
are filled in once, all the stages sharing one array, and the loops of a transform read them there.

## Main definitions

* `FftTables`, `FftTables.make`, `FftTables.forward`, `FftTables.inverse`
* `RealFftTables`, `RealFftTables.make`, `RealFftTables.forward`, `RealFftTables.inverse`

## Main results

* `FftTables.make_eq_ok` -- the sizes that are accepted, and the tables that are built for them
* `FftTables.forward_eq`, `FftTables.inverse_eq` -- the loops compute `fftForward`, `fftInverse`
* `RealFftTables.forward_eq`, `RealFftTables.inverse_eq` -- and `realFftForward`, `realFftInverse`
-/

namespace RtaTool

namespace Dsp

open Fft

variable {K : Type*} [Field K]

/-! ### The complex transform -/

/-- The members of an `Fft`. -/
structure FftTables (K : Type*) [CommRing K] where
  size : ℕ
  reversed : ℕ → ℕ
  stageTwiddles : ℕ → Cplx K

/-- `std::has_single_bit`. -/
def hasSingleBit (n : ℕ) : Bool := 2 ^ n.log2 == n

/-- `std::countr_zero`, of a number that is not zero. -/
def countrZero (n : ℕ) : ℕ := if n = 0 ∨ n % 2 = 1 then 0 else countrZero (n / 2) + 1

/-- The loop that fills `reversed_`. -/
def fillReversed (size : ℕ) : ℕ → ℕ :=
  let levels := countrZero size
  (List.range size).foldl
    (fun reversed i =>
      let r := (List.range levels).foldl
        (fun r bit => r ||| ((i >>> bit) &&& 1) <<< (levels - 1 - bit)) 0
      Function.update reversed i r)
    fun _ => 0

/-- The loop that fills `stageTwiddles_`. -/
def fillStageTwiddles (trig : Trig K) (size : ℕ) : ℕ → Cplx K :=
  forDoubling size
    (fun stageTwiddles len =>
      let half := len / 2
      let step := size / len
      (List.range half).foldl
        (fun stageTwiddles j =>
          let angle := -(2 * trig.pi) * (j * step : ℕ) / size
          Function.update stageTwiddles (half - 1 + j) (cis trig angle))
        stageTwiddles)
    2 fun _ => 0

/-- `Fft::Fft`. -/
def FftTables.make (trig : Trig K) (size : ℕ) : Except String (FftTables K) :=
  if size < 2 || !hasSingleBit size then
    .error "Fft size must be a power of two and at least 2"
  else
    .ok
      { size
        reversed := fillReversed size
        stageTwiddles := fillStageTwiddles trig size }

/-- `butterflies`. -/
def butterflies (conjugate : Bool) (data : ℕ → Cplx K) (size : ℕ) (stageTwiddles : ℕ → Cplx K) :
    ℕ → Cplx K :=
  forDoubling size
    (fun data len =>
      let half := len / 2
      let table := fun j => stageTwiddles (half - 1 + j)
      forStride size len
        (fun data start =>
          (List.range half).foldl
            (fun data j =>
              let w := if conjugate then star (table j) else table j
              butterfly data (start + j) (start + half + j) w)
            data)
        0 data)
    2 data

namespace FftTables

/-- `Fft::transform`, of a span of `dataSize` numbers. -/
def transform (fft : FftTables K) (dataSize : ℕ) (data : ℕ → Cplx K) (conjugate : Bool) :
    Except String (ℕ → Cplx K) :=
  if dataSize ≠ fft.size then .error "Fft::transform got a span of the wrong length"
  else
    let data := (List.range fft.size).foldl
      (fun data i =>
        let j := fft.reversed i
        if i < j then swap data i j else data)
      data
    .ok (butterflies conjugate data fft.size fft.stageTwiddles)

/-- `Fft::forward`. -/
def forward (fft : FftTables K) (dataSize : ℕ) (data : ℕ → Cplx K) :
    Except String (ℕ → Cplx K) :=
  fft.transform dataSize data false

/-- `Fft::inverse`. -/
def inverse (fft : FftTables K) (dataSize : ℕ) (data : ℕ → Cplx K) :
    Except String (ℕ → Cplx K) := do
  let data ← fft.transform dataSize data true
  return fun i => (1 / (fft.size : K)) • data i

end FftTables

/-! ### The tables that are built -/

theorem hasSingleBit_two_pow (levels : ℕ) : hasSingleBit (2 ^ levels) = true := by
  simp [hasSingleBit, Nat.log2_two_pow]

theorem countrZero_two_pow (levels : ℕ) : countrZero (2 ^ levels) = levels := by
  induction levels with
  | zero => simp [countrZero]
  | succ levels ih =>
    have heven : ¬ (2 ^ (levels + 1) = 0 ∨ 2 ^ (levels + 1) % 2 = 1) := by
      have := Nat.two_pow_pos (levels + 1)
      omega
    rw [countrZero, if_neg heven, Fft.two_pow_half, ih]

/-- The sizes that an `Fft` takes are the powers of two from 2 on. -/
theorem FftTables.make_eq_ok {trig : Trig K} {size : ℕ} {fft : FftTables K} :
    make trig size = .ok fft ↔ ∃ levels, size = 2 ^ (levels + 1) ∧
      fft = ⟨size, fillReversed size, fillStageTwiddles trig size⟩ := by
  constructor
  · intro h
    rw [make] at h
    split_ifs at h with hsize
    rw [Bool.or_eq_true, not_or, decide_eq_true_iff, Bool.not_eq_true', Bool.not_eq_false,
      hasSingleBit, beq_iff_eq] at hsize
    refine ⟨size.log2 - 1, ?_, (Except.ok.inj h).symm⟩
    have hlog : size.log2 ≠ 0 := by
      intro hzero
      rw [hzero] at hsize
      omega
    rw [Nat.sub_add_cancel (Nat.one_le_iff_ne_zero.mpr hlog), hsize.2]
  · rintro ⟨levels, rfl, rfl⟩
    have htwo : ¬ 2 ^ (levels + 1) < 2 := by
      have := Nat.two_pow_pos levels
      rw [pow_succ]
      omega
    simp [make, hasSingleBit_two_pow, htwo]

theorem fillReversed_apply {levels i : ℕ} (hi : i < 2 ^ levels) :
    fillReversed (2 ^ levels) i = bitReverse levels i := by
  have hfill := foldl_range_update 0 (2 ^ levels) (bitReverse levels) (fun _ => 0) i
  simp only [Nat.zero_add] at hfill
  rw [fillReversed, countrZero_two_pow]
  exact hfill.trans (if_pos ⟨Nat.zero_le i, hi⟩)

theorem fillStageTwiddles_apply (trig : Trig K) {levels s j : ℕ} (hs : s < levels)
    (hj : j < 2 ^ s) :
    fillStageTwiddles trig (2 ^ levels) (2 ^ s - 1 + j) =
      stageTwiddle trig (2 ^ levels) (2 ^ s) j := by
  have hturns := forDoubling_two_pow
    (fun (stageTwiddles : ℕ → Cplx K) len =>
      (List.range (len / 2)).foldl
        (fun stageTwiddles j =>
          Function.update stageTwiddles (len / 2 - 1 + j)
            (cis trig (-(2 * trig.pi) * (j * (2 ^ levels / len) : ℕ) / (2 ^ levels : ℕ))))
        stageTwiddles)
    (fun _ => 0) 0 levels
  rw [Nat.zero_add, Nat.zero_add, pow_one] at hturns
  rw [fillStageTwiddles]
  dsimp only
  rw [hturns]
  -- a stage writes behind what the stages before it have written
  refine foldl_range_invariant
    (fun n (stageTwiddles : ℕ → Cplx K) => ∀ s < n, ∀ j < 2 ^ s,
      stageTwiddles (2 ^ s - 1 + j) = stageTwiddle trig (2 ^ levels) (2 ^ s) j)
    (fun s hs => absurd hs (Nat.not_lt_zero s)) (fun n _ stageTwiddles hold s hs j hj => ?_)
    s hs j hj
  have hhalf : 2 ^ (0 + n + 1) / 2 = 2 ^ n := by rw [Nat.zero_add, Fft.two_pow_half]
  have hspan : 2 ^ (0 + n + 1) = 2 * 2 ^ n := by rw [Nat.zero_add, pow_succ']
  rw [hhalf, hspan, foldl_range_update]
  obtain rfl | hlt := (Nat.lt_succ_iff.mp hs).eq_or_lt
  · rw [if_pos ⟨Nat.le_add_right _ _, Nat.add_lt_add_left hj _⟩, Nat.add_sub_cancel_left]
    rfl
  · have hgrow : 2 ^ (s + 1) ≤ 2 ^ n := Nat.pow_le_pow_right Nat.two_pos hlt
    rw [pow_succ] at hgrow
    rw [if_neg (by omega), hold s hlt j hj]

/-! ### The loops of a transform -/

namespace FftTables

variable {fft : FftTables K}

variable {trig : Trig K} {levels : ℕ}

/-- `Fft::transform` runs the radix-2 algorithm, with what the constructor has tabulated. -/
theorem transform_eq
    (hmake : make trig (2 ^ levels) = .ok fft) (data : ℕ → Cplx K) (conjugate : Bool) :
    fft.transform (2 ^ levels) data conjugate = .ok (Fft.transform
      (fun s j =>
        let w := fft.stageTwiddles (2 ^ s - 1 + j)
        if conjugate then star w else w)
      levels data) := by
  obtain ⟨_, _, rfl⟩ := make_eq_ok.mp hmake
  have hpermute : (List.range (2 ^ levels)).foldl
      (fun data i => if i < fillReversed (2 ^ levels) i
        then swap data i (fillReversed (2 ^ levels) i) else data) data =
      permute (2 ^ levels) (bitReverse levels) data := by
    refine foldl_range_congr (fun i hi data => ?_) data
    rw [fillReversed_apply hi]
  have hturns := forDoubling_two_pow
    (fun (data : ℕ → Cplx K) len =>
      forStride (2 ^ levels) len
        (fun data start =>
          (List.range (len / 2)).foldl
            (fun data j =>
              let w := if conjugate
                then star (fillStageTwiddles trig (2 ^ levels) (len / 2 - 1 + j))
                else fillStageTwiddles trig (2 ^ levels) (len / 2 - 1 + j)
              butterfly data (start + j) (start + len / 2 + j) w)
            data)
        0 data)
    (permute (2 ^ levels) (bitReverse levels) data) 0 levels
  rw [Nat.zero_add, Nat.zero_add, pow_one] at hturns
  rw [transform, if_neg (not_not.mpr rfl)]
  dsimp only
  rw [hpermute, butterflies]
  dsimp only
  rw [hturns, Fft.transform]
  congr 1
  refine foldl_range_congr (fun s hs data => ?_) _
  -- the blocks of the stage are the turns of the middle loop
  have hhalf : 2 ^ (0 + s + 1) / 2 = 2 ^ s := by rw [Nat.zero_add, Fft.two_pow_half]
  have hspan : 2 ^ (0 + s + 1) = 2 * 2 ^ s := by rw [Nat.zero_add, pow_succ']
  have hblocks : 2 ^ levels = (0 + 2 ^ (levels - (s + 1))) * (2 * 2 ^ s) := by
    rw [Nat.zero_add, ← pow_succ', ← pow_add]
    congr 1
    omega
  have hstride : 0 < 2 * 2 ^ s := by positivity
  have hloop := forStride_mul hstride
    (fun (data : ℕ → Cplx K) start =>
      (List.range (2 ^ s)).foldl
        (fun data j =>
          let w := if conjugate
            then star (fillStageTwiddles trig (2 ^ levels) (2 ^ s - 1 + j))
            else fillStageTwiddles trig (2 ^ levels) (2 ^ s - 1 + j)
          butterfly data (start + j) (start + 2 ^ s + j) w)
        data)
    data 0 (2 ^ (levels - (s + 1)))
  rw [← hblocks, Nat.zero_mul] at hloop
  simp only [Nat.zero_add] at hloop
  rw [hhalf, hspan]
  exact hloop

theorem transform_eq_fftTransform
    (hmake : make trig (2 ^ levels) = .ok fft) (data : ℕ → Cplx K) (conjugate : Bool) :
    fft.transform (2 ^ levels) data conjugate =
      .ok (fftTransform trig (2 ^ levels) conjugate data) := by
  rw [transform_eq hmake]
  obtain ⟨_, _, rfl⟩ := make_eq_ok.mp hmake
  rw [fftTransform, Nat.log2_two_pow, Fft.transform, Fft.transform]
  congr 1
  refine foldl_range_congr (fun s hs data => ?_) _
  refine foldl_range_congr (fun b _ data => ?_) _
  refine foldl_range_congr (fun j hj data => ?_) _
  dsimp only
  rw [fillStageTwiddles_apply trig hs hj]

/-- **Headline.** `forward` computes the transform of the algorithm. -/
theorem forward_eq (hmake : make trig (2 ^ levels) = .ok fft) (data : ℕ → Cplx K) :
    fft.forward (2 ^ levels) data = .ok (fftForward trig (2 ^ levels) data) :=
  transform_eq_fftTransform hmake data false

/-- **Headline.** `inverse` computes its inverse transform. -/
theorem inverse_eq (hmake : make trig (2 ^ levels) = .ok fft) (data : ℕ → Cplx K) :
    fft.inverse (2 ^ levels) data = .ok (fftInverse trig (2 ^ levels) data) := by
  rw [inverse, transform_eq_fftTransform hmake]
  obtain ⟨_, _, rfl⟩ := make_eq_ok.mp hmake
  rfl

end FftTables

/-! ### The real transform -/

/-- The members of a `RealFft`. -/
structure RealFftTables (K : Type*) [CommRing K] where
  size : ℕ
  half : FftTables K
  unpack : ℕ → Cplx K

/-- `validated`. -/
def validated (size : ℕ) : Except String ℕ :=
  if size < 4 || !hasSingleBit size then
    .error "RealFft size must be a power of two and at least 4"
  else .ok size

/-- The loop that fills `unpack_`. -/
def fillUnpack (trig : Trig K) (size : ℕ) : ℕ → Cplx K :=
  let m := size / 2
  (List.range (m + 1)).foldl
    (fun unpack (k : ℕ) =>
      let angle := -(2 * trig.pi) * k / size
      Function.update unpack k (cis trig angle))
    fun _ => 0

namespace RealFftTables

/-- `RealFft::RealFft`. -/
def make (trig : Trig K) (size : ℕ) : Except String (RealFftTables K) :=
  match validated size with
  | .error what => .error what
  | .ok size => do
    let half ← FftTables.make trig (size / 2)
    return { size, half, unpack := fillUnpack trig size }

/-- `numBins`. -/
def numBins (fft : RealFftTables K) : ℕ := fft.size / 2 + 1

/-- `RealFft::forward`, of `inputSize` samples to `spectrumSize` bins. -/
def forward (fft : RealFftTables K) (inputSize : ℕ) (input : ℕ → K) (spectrumSize : ℕ) :
    Except String (ℕ → Cplx K) :=
  if inputSize ≠ fft.size ∨ spectrumSize ≠ fft.numBins then
    .error "RealFft::forward got a span of the wrong length"
  else do
    let m := fft.size / 2
    let scratch ← fft.half.forward m fun n => ⟨input (2 * n), input (2 * n + 1)⟩
    return fun k =>
      let zk := scratch (k % m)
      let zmk := scratch ((m - k) % m)
      let even := (1 / 2 : K) • (zk + star zmk)
      let odd := overI ((1 / 2 : K) • (zk - star zmk))
      even + fft.unpack k * odd

/-- `RealFft::inverse`, of `spectrumSize` bins to `outputSize` samples. -/
def inverse (fft : RealFftTables K) (spectrumSize : ℕ) (spectrum : ℕ → Cplx K) (outputSize : ℕ) :
    Except String (ℕ → K) :=
  if spectrumSize ≠ fft.numBins ∨ outputSize ≠ fft.size then
    .error "RealFft::inverse got a span of the wrong length"
  else do
    let m := fft.size / 2
    let dc : Cplx K := ⟨(spectrum 0).re, 0⟩
    let nyquist : Cplx K := ⟨(spectrum m).re, 0⟩
    let scratch ← fft.half.inverse m fun k =>
      let xk := if k = 0 then dc else spectrum k
      let xmk := if k = 0 then nyquist else spectrum (m - k)
      let even := (1 / 2 : K) • (xk + star xmk)
      let odd := (1 / 2 : K) • (xk - star xmk) * star (fft.unpack k)
      even + timesI odd
    return fun p => if p % 2 = 0 then (scratch (p / 2)).re else (scratch (p / 2)).im

/-- The sizes that a `RealFft` takes are the powers of two from 4 on. -/
theorem make_eq_ok {trig : Trig K} {size : ℕ} {fft : RealFftTables K} :
    make trig size = .ok fft ↔ ∃ levels half, size = 2 ^ (levels + 2) ∧
      FftTables.make trig (2 ^ (levels + 1)) = .ok half ∧
      fft = ⟨size, half, fillUnpack trig size⟩ := by
  constructor
  · intro h
    rw [make, validated] at h
    split_ifs at h with hsize
    rw [Bool.or_eq_true, not_or, decide_eq_true_iff, Bool.not_eq_true', Bool.not_eq_false,
      hasSingleBit, beq_iff_eq] at hsize
    dsimp only at h
    have hlog : 2 ≤ size.log2 := by
      rw [Nat.le_log2 (by omega)]
      omega
    obtain ⟨levels, hlevels⟩ := Nat.exists_eq_add_of_le' hlog
    have hpow : size = 2 ^ (levels + 2) := by rw [← hlevels, hsize.2]
    have hhalf : size / 2 = 2 ^ (levels + 1) := by rw [hpow, Fft.two_pow_half]
    rw [hhalf] at h
    cases hmake : FftTables.make trig (2 ^ (levels + 1)) with
    | error what =>
      rw [hmake] at h
      cases h
    | ok half =>
      rw [hmake] at h
      exact ⟨levels, half, hpow, hmake, (Except.ok.inj h).symm⟩
  · rintro ⟨levels, half, rfl, hmake, rfl⟩
    have hfour : ¬ 2 ^ (levels + 2) < 4 := by
      have := Nat.two_pow_pos levels
      rw [pow_succ, pow_succ]
      omega
    have hhalf : 2 ^ (levels + 2) / 2 = 2 ^ (levels + 1) := Fft.two_pow_half _
    simp only [make, validated, hasSingleBit_two_pow, hfour, decide_false, Bool.not_true,
      Bool.or_false, Bool.false_eq_true, if_false, hhalf, hmake]
    rfl

theorem exists_make (trig : Trig K) (levels : ℕ) : ∃ half,
    make trig (2 ^ (levels + 2)) =
      .ok ⟨2 ^ (levels + 2), half, fillUnpack trig (2 ^ (levels + 2))⟩ := by
  obtain ⟨half, hmake⟩ : ∃ half, FftTables.make trig (2 ^ (levels + 1)) = .ok half :=
    ⟨_, FftTables.make_eq_ok.mpr ⟨levels, rfl, rfl⟩⟩
  exact ⟨half, make_eq_ok.mpr ⟨levels, half, rfl, hmake, rfl⟩⟩

end RealFftTables

theorem fillUnpack_apply (trig : Trig K) {size k : ℕ} (hk : k ≤ size / 2) :
    fillUnpack trig size k = unpack trig size k := by
  have hfill := foldl_range_update 0 (size / 2 + 1)
    (fun k : ℕ => cis trig (-(2 * trig.pi) * k / size)) (fun _ => 0) k
  simp only [Nat.zero_add] at hfill
  rw [fillUnpack]
  exact hfill.trans (if_pos ⟨Nat.zero_le k, by omega⟩)

namespace RealFftTables

variable {fft : RealFftTables K} {trig : Trig K}

/-- **Headline.** `forward` computes the bins of `realFftForward`. -/
theorem forward_eq {size : ℕ} (hmake : make trig size = .ok fft) (input : ℕ → K) :
    ∃ spectrum, fft.forward size input (size / 2 + 1) = .ok spectrum ∧
      ∀ k ≤ size / 2, spectrum k = realFftForward trig size input k := by
  obtain ⟨levels, half, rfl, hhalf, rfl⟩ := make_eq_ok.mp hmake
  have hm : 2 ^ (levels + 2) / 2 = 2 ^ (levels + 1) := Fft.two_pow_half _
  rw [forward, if_neg (by simp [numBins])]
  dsimp only
  rw [hm, FftTables.forward_eq hhalf]
  refine ⟨_, rfl, fun k hk => ?_⟩
  rw [fillUnpack_apply trig (hk.trans_eq hm.symm), realFftForward, hm]

/-- **Headline.** `inverse` computes the samples of `realFftInverse`. -/
theorem inverse_eq {ζ : ℕ → Cplx K} (h : TrigRoots trig ζ) {size : ℕ}
    (hmake : make trig size = .ok fft) (spectrum : ℕ → Cplx K) :
    ∃ samples, fft.inverse (size / 2 + 1) spectrum size = .ok samples ∧
      ∀ p < size, samples p = realFftInverse trig size spectrum p := by
  obtain ⟨levels, half, rfl, hhalf, rfl⟩ := make_eq_ok.mp hmake
  have hm : 2 ^ (levels + 2) / 2 = 2 ^ (levels + 1) := Fft.two_pow_half _
  rw [inverse, if_neg (by simp [numBins])]
  dsimp only
  rw [hm, FftTables.inverse_eq hhalf]
  refine ⟨_, rfl, fun p hp => ?_⟩
  have hbelow : p / 2 < 2 ^ (levels + 1) := by
    rw [pow_succ] at hp
    omega
  rw [realFftInverse, hm]
  -- the transform reads the bins below the Nyquist one only, and there the tables agree
  refine congrArg (fun z : Cplx K => if p % 2 = 0 then z.re else z.im)
    (h.fftInverse_congr hbelow fun k hk => ?_)
  dsimp only
  rw [fillUnpack_apply trig (hk.le.trans_eq hm.symm)]

end RealFftTables

end Dsp

end RtaTool
