import Mathlib.Data.List.Basic

/-!
# The raw-capture accumulator

`RawCaptureBuffer` is two spans of equal length, filled hop by hop until they are full: not a ring,
but the one-shot window a Locate, a sweep or a calibration check is computed from. `arm` sizes both
and resets the cursor; a hop that overshoots what is left is cut at the boundary.

## Main definitions

* `PairedHop` -- a hop of a reference and the hop of a measurement drained with it
* `RawCaptureBuffer`, `arm`, `feedHop`, `isFull`
* `RawCaptureBuffer.Holds` -- the buffer is the first samples of these hops

## Main results

* `RawCaptureBuffer.Holds.feedHop` -- one more hop
* `RawCaptureBuffer.Holds.of_isFull` -- what a full buffer consists of
-/

namespace RtaTool

variable {Sample : Type}

/-- What `drainPaired` hands on for one route: the scratch buffers of its two channels, which were
filled with the same number of samples. -/
structure PairedHop (Sample : Type) where
  route : ℕ
  reference : List Sample
  measurement : List Sample
  same_length : reference.length = measurement.length
  deriving DecidableEq

/-- `RawCaptureBuffer`. -/
structure RawCaptureBuffer (Sample : Type) where
  reference : List Sample := []
  measurement : List Sample := []
  length : ℕ := 0
  written : ℕ := 0

/-- `std::copy_n` into a span at a cursor. -/
def copyAt (span : List Sample) (cursor : ℕ) (src : List Sample) : List Sample :=
  span.take cursor ++ src ++ span.drop (cursor + src.length)

namespace RawCaptureBuffer

/-- `arm(length)`: both channels sized and zeroed, the cursor at the start. -/
def arm (zero : Sample) (length : ℕ) : RawCaptureBuffer Sample where
  reference := List.replicate length zero
  measurement := List.replicate length zero
  length := length
  written := 0

/-- `feedHop(referenceHop, measurementHop)`. -/
def feedHop (b : RawCaptureBuffer Sample) (referenceHop measurementHop : List Sample) :
    RawCaptureBuffer Sample :=
  let hopLen := min referenceHop.length measurementHop.length
  let remaining := if b.written < b.length then b.length - b.written else 0
  let taken := min hopLen remaining
  if taken = 0 then b
  else
    { b with
      reference := copyAt b.reference b.written (referenceHop.take taken)
      measurement := copyAt b.measurement b.written (measurementHop.take taken)
      written := b.written + taken }

/-- `isFull()`. -/
def isFull (b : RawCaptureBuffer Sample) : Bool := decide (b.length ≤ b.written)

/-! ### What is in it -/

/-- The span that has been filled with the first samples of `stream`, and is zero after them. -/
def filled (zero : Sample) (length : ℕ) (stream : List Sample) : List Sample :=
  stream.take length ++ List.replicate (length - stream.length) zero

theorem length_filled (zero : Sample) (length : ℕ) (stream : List Sample) :
    (filled zero length stream).length = length := by
  simp only [filled, List.length_append, List.length_take, List.length_replicate]
  omega

variable {stream more : List Sample}

section

variable (zero : Sample)

variable {length : ℕ}

/-- What lies past the end of the span does not matter. -/
theorem filled_append_take {taken : ℕ} (h : min more.length (length - stream.length) ≤ taken) :
    filled zero length (stream ++ more.take taken) = filled zero length (stream ++ more) := by
  have htake : (stream ++ more.take taken).take length = (stream ++ more).take length := by
    rw [List.take_append, List.take_append, List.take_take]
    congr 1
    rw [List.take_eq_take_iff]
    omega
  have hrest : length - (stream ++ more.take taken).length = length - (stream ++ more).length := by
    rw [List.length_append, List.length_append, List.length_take]
    omega
  rw [filled, filled, htake, hrest]

theorem copyAt_filled (hroom : stream.length + more.length ≤ length) :
    copyAt (filled zero length stream) stream.length more = filled zero length (stream ++ more) := by
  have hshort : stream.take length = stream := List.take_of_length_le (by omega)
  have hlong : (stream ++ more).take length = stream ++ more :=
    List.take_of_length_le (by rw [List.length_append]; omega)
  rw [copyAt, filled, filled, hshort, hlong, List.take_left, List.drop_length_add_append,
    List.drop_replicate, List.length_append, Nat.sub_sub]

/-- One channel of `feedHop`: the cursor stands after what there is of the stream. -/
theorem copyAt_taken (hshort : stream.length < length) :
    copyAt (filled zero length stream) stream.length
        (more.take (min more.length (length - stream.length))) =
      filled zero length (stream ++ more) := by
  rw [copyAt_filled zero, filled_append_take zero (Nat.le_refl _)]
  rw [List.length_take]
  omega

/-- A full span is not touched by what comes after. -/
theorem filled_append_of_le (hlong : length ≤ stream.length) :
    filled zero length (stream ++ more) = filled zero length stream := by
  have h : filled zero length (stream ++ more.take 0) = filled zero length (stream ++ more) :=
    filled_append_take zero (by omega)
  rw [← h, List.take_zero, List.append_nil]

/-- The buffer was armed for `length` samples and has been fed these hops since. -/
structure Holds (zero : Sample) (length : ℕ) (hops : List (PairedHop Sample))
    (b : RawCaptureBuffer Sample) : Prop where
  length_eq : b.length = length
  written_eq : b.written = min (hops.flatMap (·.reference)).length length
  reference_eq : b.reference = filled zero length (hops.flatMap (·.reference))
  measurement_eq : b.measurement = filled zero length (hops.flatMap (·.measurement))

theorem holds_arm (length : ℕ) : Holds zero length [] (arm zero length) where
  length_eq := rfl
  written_eq := (Nat.zero_min length).symm
  reference_eq := by simp [arm, filled]
  measurement_eq := by simp [arm, filled]

end

theorem length_flatMap_measurement (hops : List (PairedHop Sample)) :
    (hops.flatMap (·.measurement)).length = (hops.flatMap (·.reference)).length := by
  induction hops with
  | nil => rfl
  | cons hop hops ih =>
    rw [List.flatMap_cons, List.flatMap_cons, List.length_append, List.length_append, ih,
      hop.same_length]

variable {hops : List (PairedHop Sample)} {b : RawCaptureBuffer Sample}

variable {zero : Sample} {length : ℕ}

/-- One more hop goes to the end of the stream, or past the end of the span. -/
theorem Holds.feedHop (h : b.Holds zero length hops) (hop : PairedHop Sample) :
    (b.feedHop hop.reference hop.measurement).Holds zero length (hops ++ [hop]) := by
  have hmeas := length_flatMap_measurement hops
  have href : (hops ++ [hop]).flatMap (·.reference) = hops.flatMap (·.reference) ++ hop.reference := by
    simp
  have hme : (hops ++ [hop]).flatMap (·.measurement) =
      hops.flatMap (·.measurement) ++ hop.measurement := by
    simp
  have hlen := hop.same_length
  rw [RawCaptureBuffer.feedHop, h.written_eq, h.length_eq, ← hlen, Nat.min_self]
  by_cases hfull : length ≤ (hops.flatMap (·.reference)).length
  · have hw : min (hops.flatMap (·.reference)).length length = length := Nat.min_eq_right hfull
    rw [hw, if_neg (Nat.lt_irrefl length), Nat.min_zero, if_pos rfl]
    refine ⟨h.length_eq, ?_, ?_, ?_⟩
    · rw [h.written_eq, href, List.length_append]
      omega
    · rw [h.reference_eq, href, filled_append_of_le zero hfull]
    · rw [h.measurement_eq, hme, filled_append_of_le zero (hmeas ▸ hfull)]
  · have hshort : (hops.flatMap (·.reference)).length < length := Nat.not_le.mp hfull
    have hw : min (hops.flatMap (·.reference)).length length =
        (hops.flatMap (·.reference)).length := Nat.min_eq_left (Nat.le_of_lt hshort)
    rw [hw, if_pos hshort]
    split
    case isTrue hzero =>
      have hnil : hop.reference = [] := List.length_eq_zero_iff.mp (by omega)
      have hnil' : hop.measurement = [] := List.length_eq_zero_iff.mp (by omega)
      rw [hnil, List.append_nil] at href
      rw [hnil', List.append_nil] at hme
      exact ⟨h.length_eq, by rw [h.written_eq, href], by rw [h.reference_eq, href],
        by rw [h.measurement_eq, hme]⟩
    case isFalse =>
      refine ⟨rfl, ?_, ?_, ?_⟩
      · rw [href, List.length_append]
        show _ + _ = _
        omega
      · rw [h.reference_eq, href]
        exact copyAt_taken zero hshort
      · rw [h.measurement_eq, hme, ← hmeas, hlen]
        exact copyAt_taken zero (hmeas ▸ hshort)

/-- A full buffer is exactly as long as it was armed for, and each channel is the beginning of the
hops that were fed. -/
theorem Holds.of_isFull (h : b.Holds zero length hops) (hfull : b.isFull = true) :
    b.reference = (hops.flatMap (·.reference)).take length ∧
      b.measurement = (hops.flatMap (·.measurement)).take length ∧
      b.reference.length = length ∧ b.measurement.length = length := by
  have hmeas := length_flatMap_measurement hops
  have hlong : length ≤ (hops.flatMap (·.reference)).length := by
    have hle : b.length ≤ b.written := of_decide_eq_true hfull
    rw [h.length_eq, h.written_eq] at hle
    omega
  have hcut {stream : List Sample} (hs : length ≤ stream.length) :
      filled zero length stream = stream.take length := by
    rw [filled, Nat.sub_eq_zero_of_le hs, List.replicate_zero, List.append_nil]
  exact ⟨h.reference_eq.trans (hcut hlong), h.measurement_eq.trans (hcut (hmeas ▸ hlong)),
    by rw [h.reference_eq, length_filled], by rw [h.measurement_eq, length_filled]⟩

end RawCaptureBuffer

end RtaTool
