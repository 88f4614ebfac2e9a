import RtaTool.Api.ApiPolicy
import RtaTool.Dsp.Refusals
import RtaTool.Lib.JsonText

/-!
# The bodies of the interface

`ApiJson.h`, `ApiSerialise.cpp` and `ApiSerialiseSpatial.cpp`: the eight bodies, put together from
keys, commas and braces. A block that is absent has no key, an array is cut off at the limit of the
request, and the count beside an array is taken from the array.

Doubles and floats are parameters with `std::isfinite` and `std::to_chars`. The fields of a snapshot
that no body has are left out.

## Main definitions

* `ApiJson.number`, `ApiJson.stringValue`, `ApiJson.array`
* `Snapshot`, `Request`, `limitOf`
* `serialiseStatus`, `serialiseSnapshot`, `serialiseTransfer`, `serialiseSpectrum`,
  `serialiseBands`, `serialiseMtw`, `serialiseAverage`, `serialisePositions`
-/

namespace RtaTool

namespace Api

/-! ### `ApiJson.h` -/

/-- `std::isfinite` and `std::to_chars` for a type of floating point numbers. -/
structure FloatText (T : Type) where
  isFinite : T → Bool
  toChars : T → Bytes

namespace ApiJson

/-- `number(value)`, of a floating point number. -/
def number {T : Type} (text : FloatText T) (value : T) : Bytes :=
  if !text.isFinite value then bytes "null" else text.toChars value

/-- `number(value)`, of an unsigned integer. -/
def numberNat (value : ℕ) : Bytes := decimal value

/-- `number(value)`, of a signed integer. -/
def numberInt (value : ℤ) : Bytes := decimalInt value

/-- `kHex`. -/
def kHex : Bytes := bytes "0123456789abcdef"

/-- What `stringValue` writes for a byte. -/
def escaped (byte : UInt8) : Bytes :=
  if byte = 34 then [92, 34]
  else if byte = 92 then [92, 92]
  else if byte = 8 then [92, 98]
  else if byte = 12 then [92, 102]
  else if byte = 10 then [92, 110]
  else if byte = 13 then [92, 114]
  else if byte = 9 then [92, 116]
  else if byte < 0x20 then
    ([92, 117, 48, 48] : Bytes) ++
      [kHex.getD ((byte >>> 4) &&& 0x0F).toNat 0, kHex.getD (byte &&& 0x0F).toNat 0]
  else [byte]

/-- `stringValue(text)`. -/
def stringValue (text : Bytes) : Bytes := 34 :: text.flatMap escaped ++ [34]

/-- `emittedCount(size, limit)`. -/
def emittedCount (size limit : ℕ) : ℕ := if size < limit then size else limit

/-- `array(values, limit)`, with what writes one of the values. -/
def array {T : Type} (write : T → Bytes) (values : List T) (limit : ℕ) : Bytes :=
  91 :: separated ((values.take (emittedCount values.length limit)).map write) ++ [93]

end ApiJson

/-! ### What is served -/

/-- `BandReading`. -/
structure BandReading (F : Type) where
  centreHz : F
  lowerHz : F
  upperHz : F
  levelDb : F
  underResolved : Bool

/-- `TransferBlock`. -/
structure TransferBlock (D F : Type) where
  magnitudeDb : List F
  phaseDeg : List F
  coherence : Option (List F)
  effectiveAverages : D
  appliedDelaySamples : ℤ

/-- `MtwBandDescriptor`. -/
structure MtwBandDescriptor (D F : Type) where
  firstIndex : ℕ
  pointCount : ℕ
  fftSize : ℕ
  windowSeconds : F
  integrationSeconds : F
  effectiveAverages : D
  seamHz : F
  coherenceAvailable : Bool

/-- `MtwBlock`. -/
structure MtwBlock (D F : Type) where
  frequencyHz : List D
  magnitudeDb : List F
  phaseDeg : List F
  coherence : List F
  bands : List (MtwBandDescriptor D F)
  appliedDelaySamples : ℤ

/-- `AverageBlock`. -/
structure AverageBlock (F : Type) where
  magnitudeDb : List F
  phaseDeg : List F
  phaseAgreement : List F
  weightedCoherence : List F
  contributors : List UInt16
  absence : List SpatialAbsence

/-- `Membership`. -/
inductive Membership
  | member
  | excludedDifferentReference
  | excludedOverCapacity
  deriving DecidableEq

/-- `PositionSummary`. -/
structure PositionSummary (D F : Type) where
  tfIndex : ℤ
  name : Bytes
  levelDb : F
  weightedCoherence : F
  effectiveAverages : D
  gatePassed : Bool
  overloaded : Bool
  membership : Membership

/-- `Snapshot`. -/
structure Snapshot (D F : Type) where
  sequence : ℕ
  sampleRate : D
  fftSize : ℕ
  fraction : ℤ
  bands : List (BandReading F)
  spectrumDb : List F
  transfer : Option (TransferBlock D F)
  mtw : Option (MtwBlock D F)
  hasReference : Bool
  framesAnalysed : ℕ
  droppedSamples : ℕ
  average : Option (AverageBlock F)
  positions : List (PositionSummary D F)

/-- `kDefaultMaxPointsPerResponse`. -/
def kDefaultMaxPointsPerResponse : ℤ := 8192

/-- `Request`. -/
structure Request where
  points : ℤ := kDefaultMaxPointsPerResponse

/-! ### `ApiSerialise.cpp` -/

open ApiJson

/-- `key(name)`. -/
def key (name : Bytes) : Bytes := stringValue name ++ [58]

/-- `limitOf(request)`. -/
def limitOf (request : Request) : ℕ :=
  if 0 < request.points then request.points.toNat else kDefaultMaxPointsPerResponse.toNat

/-- An opening brace. -/
def openBrace : Bytes := [123]

/-- A closing brace. -/
def closeBrace : Bytes := [125]

/-- `b ? "true" : "false"`. -/
def flag (b : Bool) : Bytes := if b then bytes "true" else bytes "false"

variable {D F : Type} (double : FloatText D) (float : FloatText F)

/-- `uniformAxis(snapshot, pointCount)`. -/
def uniformAxis (snapshot : Snapshot D F) (pointCount : ℕ) : Bytes :=
  openBrace ++
  (key (bytes "kind") ++ stringValue (bytes "uniform") ++ bytes ",") ++
  (key (bytes "sampleRate") ++ number double snapshot.sampleRate ++ bytes ",") ++
  (key (bytes "fftSize") ++ numberNat snapshot.fftSize ++ bytes ",") ++
  (key (bytes "pointCount") ++ numberNat pointCount) ++
  closeBrace

/-- `statusFields(snapshot, settings)`: the settings are not read. -/
def statusFields (snapshot : Snapshot D F) (_settings : ApiSettings) : Bytes :=
  (key (bytes "schemaVersion") ++ bytes "1,") ++
  (key (bytes "app") ++ stringValue (bytes "RTA Tool") ++ bytes ",") ++
  (key (bytes "sequence") ++ numberNat snapshot.sequence ++ bytes ",") ++
  (key (bytes "sampleRate") ++ number double snapshot.sampleRate ++ bytes ",") ++
  (key (bytes "fftSize") ++ numberNat snapshot.fftSize ++ bytes ",") ++
  (key (bytes "fraction") ++ numberInt snapshot.fraction ++ bytes ",") ++
  (key (bytes "hasReference") ++ flag snapshot.hasReference ++ bytes ",") ++
  (key (bytes "framesAnalysed") ++ numberNat snapshot.framesAnalysed ++ bytes ",") ++
  (key (bytes "droppedSamples") ++ numberNat snapshot.droppedSamples ++ bytes ",") ++
  (key (bytes "available") ++
    bytes "[\"transfer\",\"mtw\",\"bands\",\"spectrum\",\"average\",\"positions\"]")

/-- `transferFields(snapshot, block, request)`. -/
def transferFields (snapshot : Snapshot D F) (block : TransferBlock D F) (request : Request) :
    Bytes :=
  let limit := limitOf request
  let count := emittedCount block.magnitudeDb.length limit
  (key (bytes "axis") ++ uniformAxis double snapshot count ++ bytes ",") ++
  (key (bytes "effectiveAverages") ++ number double block.effectiveAverages ++ bytes ",") ++
  (key (bytes "appliedDelaySamples") ++ numberInt block.appliedDelaySamples ++ bytes ",") ++
  (key (bytes "magnitudeDb") ++ array (number float) block.magnitudeDb limit ++ bytes ",") ++
  (key (bytes "phaseDeg") ++ array (number float) block.phaseDeg limit) ++
  block.coherence.elim [] fun coherence =>
    bytes "," ++ key (bytes "coherence") ++ array (number float) coherence limit

/-- One turn of the loop of `bandsArray`, after the comma. -/
def bandObject (band : BandReading F) : Bytes :=
  openBrace ++
  (key (bytes "centreHz") ++ number float band.centreHz ++ bytes ",") ++
  (key (bytes "lowerHz") ++ number float band.lowerHz ++ bytes ",") ++
  (key (bytes "upperHz") ++ number float band.upperHz ++ bytes ",") ++
  (key (bytes "levelDb") ++ number float band.levelDb ++ bytes ",") ++
  (key (bytes "underResolved") ++ flag band.underResolved) ++
  closeBrace

/-- `bandsArray(snapshot)`. -/
def bandsArray (snapshot : Snapshot D F) : Bytes :=
  bytes "[" ++ separated (snapshot.bands.map (bandObject float)) ++ bytes "]"

/-- `serialiseStatus(snapshot, settings)`. -/
def serialiseStatus (snapshot : Snapshot D F) (settings : ApiSettings) : Bytes :=
  openBrace ++ statusFields double snapshot settings ++ closeBrace

/-- `serialiseTransfer(snapshot, request)`. -/
def serialiseTransfer (snapshot : Snapshot D F) (request : Request) : Bytes :=
  openBrace ++
  (key (bytes "schemaVersion") ++ bytes "1,") ++
  (key (bytes "sequence") ++ numberNat snapshot.sequence) ++
  (snapshot.transfer.elim [] fun block =>
    bytes "," ++ transferFields double float snapshot block request) ++
  closeBrace

/-- `serialiseSpectrum(snapshot, request)`. -/
def serialiseSpectrum (snapshot : Snapshot D F) (request : Request) : Bytes :=
  let limit := limitOf request
  let count := emittedCount snapshot.spectrumDb.length limit
  openBrace ++
  (key (bytes "schemaVersion") ++ bytes "1,") ++
  (key (bytes "sequence") ++ numberNat snapshot.sequence ++ bytes ",") ++
  (key (bytes "axis") ++ uniformAxis double snapshot count ++ bytes ",") ++
  (key (bytes "spectrumDb") ++ array (number float) snapshot.spectrumDb limit) ++
  closeBrace

/-- `serialiseBands(snapshot)`. -/
def serialiseBands (snapshot : Snapshot D F) : Bytes :=
  openBrace ++
  (key (bytes "schemaVersion") ++ bytes "1,") ++
  (key (bytes "sequence") ++ numberNat snapshot.sequence ++ bytes ",") ++
  (key (bytes "fraction") ++ numberInt snapshot.fraction ++ bytes ",") ++
  (key (bytes "bands") ++ bandsArray float snapshot) ++
  closeBrace

/-! ### `ApiSerialiseSpatial.cpp` -/

/-- `absenceName(absence)`. -/
def absenceName : SpatialAbsence → Bytes
  | .present => bytes "present"
  | .noContributor => bytes "noContributor"
  | .noWeight => bytes "noWeight"

/-- `membershipName(membership)`. -/
def membershipName : Membership → Bytes
  | .member => bytes "member"
  | .excludedDifferentReference => bytes "excludedDifferentReference"
  | .excludedOverCapacity => bytes "excludedOverCapacity"

/-- One turn of the loop over the bands of `mtwFields`, after the comma. -/
def mtwBandObject (band : MtwBandDescriptor D F) : Bytes :=
  openBrace ++
  (key (bytes "firstIndex") ++ numberNat band.firstIndex ++ bytes ",") ++
  (key (bytes "pointCount") ++ numberNat band.pointCount ++ bytes ",") ++
  (key (bytes "fftSize") ++ numberNat band.fftSize ++ bytes ",") ++
  (key (bytes "windowSeconds") ++ number float band.windowSeconds ++ bytes ",") ++
  (key (bytes "integrationSeconds") ++ number float band.integrationSeconds ++ bytes ",") ++
  (key (bytes "effectiveAverages") ++ number double band.effectiveAverages ++ bytes ",") ++
  (key (bytes "seamHz") ++ number float band.seamHz ++ bytes ",") ++
  (key (bytes "coherenceAvailable") ++ flag band.coherenceAvailable) ++
  closeBrace

/-- `mtwFields(block, request)`. -/
def mtwFields (block : MtwBlock D F) (request : Request) : Bytes :=
  let limit := limitOf request
  let count := emittedCount block.magnitudeDb.length limit
  (key (bytes "axis") ++ openBrace ++ key (bytes "kind") ++ stringValue (bytes "explicit") ++
    bytes "," ++ key (bytes "pointCount") ++ numberNat count ++ closeBrace ++ bytes ",") ++
  (key (bytes "frequencyHz") ++ array (number double) block.frequencyHz limit ++ bytes ",") ++
  (key (bytes "magnitudeDb") ++ array (number float) block.magnitudeDb limit ++ bytes ",") ++
  (key (bytes "phaseDeg") ++ array (number float) block.phaseDeg limit ++ bytes ",") ++
  (key (bytes "coherence") ++ array (number float) block.coherence limit ++ bytes ",") ++
  (key (bytes "appliedDelaySamples") ++ numberInt block.appliedDelaySamples ++ bytes ",") ++
  (key (bytes "bands") ++ bytes "[") ++
  separated (block.bands.map (mtwBandObject double float)) ++
  bytes "]"

/-- `averageFields(block, request)`. -/
def averageFields (block : AverageBlock F) (request : Request) : Bytes :=
  let limit := limitOf request
  (key (bytes "pointCount") ++ numberNat (emittedCount block.magnitudeDb.length limit) ++
    bytes ",") ++
  (key (bytes "magnitudeDb") ++ array (number float) block.magnitudeDb limit ++ bytes ",") ++
  (key (bytes "phaseDeg") ++ array (number float) block.phaseDeg limit ++ bytes ",") ++
  (key (bytes "phaseAgreement") ++ array (number float) block.phaseAgreement limit ++
    bytes ",") ++
  (key (bytes "weightedCoherence") ++ array (number float) block.weightedCoherence limit ++
    bytes ",") ++
  (key (bytes "contributors") ++ array (fun c => numberNat c.toNat) block.contributors limit ++
    bytes ",") ++
  (key (bytes "absence") ++ bytes "[") ++
  separated ((block.absence.take (emittedCount block.absence.length limit)).map fun absence =>
    stringValue (absenceName absence)) ++
  bytes "]"

/-- One turn of the loop of `positionsArray`, after the comma. -/
def positionObject (position : PositionSummary D F) : Bytes :=
  openBrace ++
  (key (bytes "tfIndex") ++ numberInt position.tfIndex ++ bytes ",") ++
  (key (bytes "name") ++ stringValue position.name ++ bytes ",") ++
  (key (bytes "levelDb") ++ number float position.levelDb ++ bytes ",") ++
  (key (bytes "weightedCoherence") ++ number float position.weightedCoherence ++ bytes ",") ++
  (key (bytes "effectiveAverages") ++ number double position.effectiveAverages ++ bytes ",") ++
  (key (bytes "gatePassed") ++ flag position.gatePassed ++ bytes ",") ++
  (key (bytes "overloaded") ++ flag position.overloaded ++ bytes ",") ++
  (key (bytes "membership") ++ stringValue (membershipName position.membership)) ++
  closeBrace

/-- `positionsArray(snapshot)`. -/
def positionsArray (snapshot : Snapshot D F) : Bytes :=
  bytes "[" ++ separated (snapshot.positions.map (positionObject double float)) ++ bytes "]"

/-- `serialiseMtw(snapshot, request)`. -/
def serialiseMtw (snapshot : Snapshot D F) (request : Request) : Bytes :=
  openBrace ++
  (key (bytes "schemaVersion") ++ bytes "1,") ++
  (key (bytes "sequence") ++ numberNat snapshot.sequence) ++
  (snapshot.mtw.elim [] fun block => bytes "," ++ mtwFields double float block request) ++
  closeBrace

/-- `serialiseAverage(snapshot, request)`. -/
def serialiseAverage (snapshot : Snapshot D F) (request : Request) : Bytes :=
  openBrace ++
  (key (bytes "schemaVersion") ++ bytes "1,") ++
  (key (bytes "sequence") ++ numberNat snapshot.sequence) ++
  (snapshot.average.elim [] fun block => bytes "," ++ averageFields float block request) ++
  closeBrace

/-- `serialisePositions(snapshot)`. -/
def serialisePositions (snapshot : Snapshot D F) : Bytes :=
  openBrace ++
  (key (bytes "schemaVersion") ++ bytes "1,") ++
  (key (bytes "sequence") ++ numberNat snapshot.sequence ++ bytes ",") ++
  (key (bytes "positions") ++ positionsArray double float snapshot) ++
  closeBrace

/-! ### The union -/

/-- `serialiseSnapshot(snapshot, request)`. -/
def serialiseSnapshot (snapshot : Snapshot D F) (request : Request) : Bytes :=
  openBrace ++
  statusFields double snapshot {} ++
  (bytes "," ++ key (bytes "bands") ++ bandsArray float snapshot) ++
  (bytes "," ++ key (bytes "spectrum") ++ openBrace ++ key (bytes "axis") ++
    uniformAxis double snapshot (emittedCount snapshot.spectrumDb.length (limitOf request)) ++
    bytes "," ++ key (bytes "spectrumDb") ++
    array (number float) snapshot.spectrumDb (limitOf request) ++ closeBrace) ++
  (snapshot.transfer.elim [] fun block =>
    bytes "," ++ key (bytes "transfer") ++ openBrace ++
      transferFields double float snapshot block request ++ closeBrace) ++
  (snapshot.mtw.elim [] fun block =>
    bytes "," ++ key (bytes "mtw") ++ openBrace ++ mtwFields double float block request ++
      closeBrace) ++
  (snapshot.average.elim [] fun block =>
    bytes "," ++ key (bytes "average") ++ openBrace ++ averageFields float block request ++
      closeBrace) ++
  (if snapshot.positions.isEmpty then []
    else bytes "," ++ key (bytes "positions") ++ positionsArray double float snapshot) ++
  closeBrace

end Api

end RtaTool
