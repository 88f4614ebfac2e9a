import Mathlib.Data.Rat.Defs

/-!
# A capture

`Trace.h`: what a measurement *was*, as one immutable block of metadata and up to three columns
over the bins of its FFT. A capture is not a tagged union; a view asks what columns it has.

`Trace::make` refuses a magnitude whose length disagrees with the FFT size, and `setPhase` and
`setCoherence` refuse a column of another length, so those lengths are fields of the structure
here. The type of the column values is a parameter: the wizards see rationals, a stored capture has
32-bit patterns. Text is bytes.

## Main definitions

* `CaptureMeta`, `Trace`, `pointCountFor`
* `VirtualTrace.fromTrace` -- which captures have a complex form
-/

namespace RtaTool

/-- `std::string`: bytes, with no encoding promised. -/
abbrev Bytes : Type := List UInt8

instance : LawfulBEq Bytes := inferInstanceAs (LawfulBEq (List UInt8))

/-- The bytes of a text in the source. -/
def bytes (text : String) : Bytes := text.toUTF8.data.toList

@[simp] theorem bytes_inj {s t : String} : bytes s = bytes t ↔ s = t := by
  rw [bytes, bytes, Array.toList_inj, ← ByteArray.ext_iff]
  exact String.toByteArray_inj

/-- `LevelUnit`. -/
inductive LevelUnit
  | dbFs
  | dbSpl
  deriving DecidableEq, Repr

/-- `CaptureMeta`: what the measurement was, fixed at capture and never edited. -/
structure CaptureMeta where
  id : Bytes := []
  capturedAtUnixMs : ℤ := 0
  deviceName : Bytes := []
  channelRoles : Bytes := []
  sampleRate : ℚ := 0
  fftSize : ℤ := 0
  window : Bytes := []
  averagingType : Bytes := []
  averagingDepth : ℤ := 0
  effectiveAverages : ℚ := 0
  appliedDelaySamples : ℤ := 0
  calibrationOffsetDb : ℚ := 0
  calibrationUnit : LevelUnit := .dbFs
  deriving DecidableEq

/-- Bins in a real FFT of `fftSize`: DC through Nyquist inclusive. -/
def pointCountFor (fftSize : ℤ) : ℕ := if 0 < fftSize then fftSize.toNat / 2 + 1 else 0

/-- `Trace`. An empty phase or coherence column is an absent one. -/
@[ext]
structure Trace (F : Type := ℚ) where
  info : CaptureMeta
  magnitude : List F
  phase : List F
  coherence : List F
  magnitude_ne_nil : magnitude ≠ []
  magnitude_length : magnitude.length = pointCountFor info.fftSize
  phase_length : phase = [] ∨ phase.length = magnitude.length
  coherence_length : coherence = [] ∨ coherence.length = magnitude.length

namespace Trace

variable {F : Type}

/-- `Trace::make`: no phase and no coherence until they are set. -/
def make (info : CaptureMeta) (magnitude : List F) : Option (Trace F) :=
  if h : magnitude.length = pointCountFor info.fftSize ∧ magnitude ≠ [] then
    some ⟨info, magnitude, [], [], h.2, h.1, .inl rfl, .inl rfl⟩
  else none

/-- `setPhase`: refused at another length, and the capture is then left as it was. -/
def setPhase (tr : Trace F) (phase : List F) : Bool × Trace F :=
  if h : phase.length = tr.magnitude.length then
    (true, { tr with phase := phase, phase_length := .inr h })
  else (false, tr)

/-- `setCoherence`. -/
def setCoherence (tr : Trace F) (coherence : List F) : Bool × Trace F :=
  if h : coherence.length = tr.magnitude.length then
    (true, { tr with coherence := coherence, coherence_length := .inr h })
  else (false, tr)

theorem make_eq_some_iff {info : CaptureMeta} {magnitude : List F} {tr : Trace F} :
    make info magnitude = some tr ↔
      tr.info = info ∧ tr.magnitude = magnitude ∧ tr.phase = [] ∧ tr.coherence = [] := by
  rw [make]
  constructor
  · intro h
    split at h
    · cases h
      exact ⟨rfl, rfl, rfl, rfl⟩
    · cases h
  · rintro ⟨rfl, rfl, hphase, hcoh⟩
    rw [dif_pos ⟨tr.magnitude_length, tr.magnitude_ne_nil⟩]
    exact congrArg some (Trace.ext rfl rfl hphase.symm hcoh.symm)

theorem setPhase_eq_true_iff {tr t : Trace F} {phase : List F} :
    tr.setPhase phase = (true, t) ↔ phase.length = tr.magnitude.length ∧ t.info = tr.info ∧
      t.magnitude = tr.magnitude ∧ t.phase = phase ∧ t.coherence = tr.coherence := by
  rw [setPhase]
  constructor
  · intro h
    split at h
    · cases h
      exact ⟨‹_›, rfl, rfl, rfl, rfl⟩
    · cases h
  · rintro ⟨hlen, hinfo, hmag, hphase, hcoh⟩
    rw [dif_pos hlen]
    exact congrArg _ (Trace.ext hinfo.symm hmag.symm hphase.symm hcoh.symm)

theorem setCoherence_eq_true_iff {tr t : Trace F} {coherence : List F} :
    tr.setCoherence coherence = (true, t) ↔ coherence.length = tr.magnitude.length ∧
      t.info = tr.info ∧ t.magnitude = tr.magnitude ∧ t.phase = tr.phase ∧
      t.coherence = coherence := by
  rw [setCoherence]
  constructor
  · intro h
    split at h
    · cases h
      exact ⟨‹_›, rfl, rfl, rfl, rfl⟩
    · cases h
  · rintro ⟨hlen, hinfo, hmag, hphase, hcoh⟩
    rw [dif_pos hlen]
    exact congrArg _ (Trace.ext hinfo.symm hmag.symm hphase.symm hcoh.symm)

/-- `Field`. -/
inductive Field
  | magnitude
  | phase
  | coherence
  deriving DecidableEq, Repr

/-- `field(f)`. -/
def field (tr : Trace F) : Field → List F
  | .magnitude => tr.magnitude
  | .phase => tr.phase
  | .coherence => tr.coherence

/-- `has(f)`. -/
def has (tr : Trace F) (f : Field) : Bool := ! (tr.field f).isEmpty

/-- `pointCount()`. -/
def pointCount (tr : Trace F) : ℕ := tr.magnitude.length

/-- `binHz()`. -/
def binHz (tr : Trace F) : ℚ :=
  if 0 < tr.info.fftSize then tr.info.sampleRate / tr.info.fftSize else 0

end Trace

/-- `VirtualTrace`, with the empty processing chain the alignment fit uses. The complex response is
a function of these columns and is left unevaluated. -/
structure VirtualTrace where
  magnitudeDb : List ℚ
  phaseRadians : List ℚ
  coherence : List ℚ
  binWidthHz : ℚ

/-- `VirtualTrace::fromTrace`: needs both magnitude and phase and a positive bin width. -/
def VirtualTrace.fromTrace (tr : Trace) : Option VirtualTrace :=
  if tr.magnitude = [] ∨ tr.phase = [] then none
  else if ¬ 0 < tr.binHz then none
  else if tr.magnitude.length ≠ tr.phase.length then none
  else
    some
      { magnitudeDb := tr.magnitude
        phaseRadians := tr.phase
        coherence := if tr.coherence.length = tr.magnitude.length then tr.coherence else []
        binWidthHz := tr.binHz }

end RtaTool
