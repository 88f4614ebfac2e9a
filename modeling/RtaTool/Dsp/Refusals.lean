/-!
# What a measurement says instead of a number

The enumerations of `rta/ir/Polarity.h`, `rta/dsp/CrossoverFit.h` and `rta/dsp/SpatialAverage.h`:
which way a loudspeaker is wired, and why that, or the frequency at which two of them cross, was not
answered; and why a bin of an average over positions has no value.

## Main definitions

* `Sign`, `IrRefusal`, `CrossoverRefusal`, `SpatialAbsence`
-/

namespace RtaTool

/-- `ir::Sign`. -/
inductive Sign
  | negative
  | unknown
  | positive
  deriving DecidableEq, Repr

/-- `ir::Refusal`. -/
inductive IrRefusal
  | none
  | noSignal
  | noNoiseEstimate
  | bandTooLow
  | bandTooHigh
  | sweepBandInsufficient
  | captureTooShort
  deriving DecidableEq, Repr

/-- `dsp::CrossoverRefusal`. -/
inductive CrossoverRefusal
  | none
  | allBinsAbsent
  | noCrossing
  | tooFewBins
  | rangeEmpty
  deriving DecidableEq, Repr

/-- `dsp::SpatialAbsence`. -/
inductive SpatialAbsence
  | present
  | noContributor
  | noWeight
  deriving DecidableEq, Repr

end RtaTool
