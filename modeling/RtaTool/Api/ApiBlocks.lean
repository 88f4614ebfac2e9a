import RtaTool.Api.ApiBodies

/-!
# What the bodies promise each other

A count travels beside its arrays, and a block is served twice: by a body of its own and inside
`/snapshot`. Both are put together from the same fields, and the arrays and the count from the same
length. So once the bodies are known to be texts of their values, the promises are facts about the
values.

## Main definitions

* `Snapshot.Agrees` -- the arrays of a block have one length
* `CountsPoints`, `CountsAgree`
* `SharesBlock`, `SharesBlocks`

## Main results

* `countsAgree` -- arrays are as long as the count beside them, in every block
* `sharesBlocks` -- a block has the same members in both bodies
* `api_bodies` -- **Headline.** All of it, with what is read of the bodies
-/

namespace RtaTool

namespace Api

open ApiJson

section Promises

variable {D F : Type} {double : FloatText D} {float : FloatText F}

/-! ### Counts -/

/-- The arrays of a block have the length of its first. -/
structure TransferBlock.Agrees (block : TransferBlock D F) : Prop where
  phaseDeg : block.phaseDeg.length = block.magnitudeDb.length
  coherence : ∀ c, block.coherence = some c → c.length = block.magnitudeDb.length

structure MtwBlock.Agrees (block : MtwBlock D F) : Prop where
  frequencyHz : block.frequencyHz.length = block.magnitudeDb.length
  phaseDeg : block.phaseDeg.length = block.magnitudeDb.length
  coherence : block.coherence.length = block.magnitudeDb.length

structure AverageBlock.Agrees (block : AverageBlock F) : Prop where
  phaseDeg : block.phaseDeg.length = block.magnitudeDb.length
  phaseAgreement : block.phaseAgreement.length = block.magnitudeDb.length
  weightedCoherence : block.weightedCoherence.length = block.magnitudeDb.length
  contributors : block.contributors.length = block.magnitudeDb.length
  absence : block.absence.length = block.magnitudeDb.length

/-- Every block that is there has arrays of one length. -/
structure Snapshot.Agrees (snapshot : Snapshot D F) : Prop where
  transfer : ∀ block, snapshot.transfer = some block → block.Agrees
  mtw : ∀ block, snapshot.mtw = some block → block.Agrees
  average : ∀ block, snapshot.average = some block → block.Agrees

/-- `axis.pointCount` of a block. -/
def axisPointCount (block : Json) : Option Json :=
  (block.member? (bytes "axis")).bind fun axis => axis.member? (bytes "pointCount")

/-- The arrays under the given names have as many items as the count says, at most `limit`. -/
def CountsPoints (limit : ℕ) (block : Json) (pointCount : Option Json) (arrays : List Bytes) :
    Prop :=
  ∃ count, count ≤ limit ∧ pointCount = some (natValue count) ∧
    ∀ name ∈ arrays, ∃ items, block.member? name = some (.array items) ∧ items.length = count

theorem emittedCount_le_limit (size limit : ℕ) : emittedCount size limit ≤ limit := by
  rw [emittedCount]
  split_ifs with h
  · exact h.le
  · exact le_rfl

theorem emittedCount_le_size (size limit : ℕ) : emittedCount size limit ≤ size := by
  rw [emittedCount]
  split_ifs with h
  · exact le_rfl
  · exact Nat.le_of_not_lt h

theorem items_of_member {T : Type} (value : T → Json) {block : Json} {name : Bytes}
    {points : List T} {size limit : ℕ}
    (hmember : block.member? name = some (arrayValue value points limit))
    (h : points.length = size) :
    ∃ items, block.member? name = some (.array items) ∧
      items.length = emittedCount size limit := by
  refine ⟨_, hmember, ?_⟩
  rw [List.length_map, List.length_take, h, Nat.min_eq_left (emittedCount_le_size _ _)]

/-- The per-point arrays of a transfer block: coherence is one of them where there is any. -/
def transferArrays (block : TransferBlock D F) : List Bytes :=
  [bytes "magnitudeDb", bytes "phaseDeg"] ++
    block.coherence.elim [] fun _ => [bytes "coherence"]

theorem countsPoints_transfer (snapshot : Snapshot D F) {block : TransferBlock D F}
    (h : block.Agrees) (limit : ℕ) :
    CountsPoints limit (.object (transferMembers double float snapshot block limit))
      (axisPointCount (.object (transferMembers double float snapshot block limit)))
      (transferArrays block) := by
  refine ⟨_, emittedCount_le_limit block.magnitudeDb.length limit, ?_, ?_⟩
  · simp [axisPointCount, Json.member?, transferMembers, uniformAxisValue]
  · intro name hname
    rcases List.mem_append.mp hname with hname | hname
    · simp only [List.mem_cons, List.not_mem_nil, or_false] at hname
      rcases hname with rfl | rfl
      · exact items_of_member (numberValue float) (by simp [Json.member?, transferMembers]) rfl
      · exact items_of_member (numberValue float) (by simp [Json.member?, transferMembers])
          h.phaseDeg
    · cases hcoherence : block.coherence with
      | none =>
        rw [hcoherence] at hname
        exact absurd hname List.not_mem_nil
      | some c =>
        rw [hcoherence] at hname
        obtain rfl := List.mem_singleton.mp hname
        have hmember : (Json.object (transferMembers double float snapshot block limit)).member?
            (bytes "coherence") = some (arrayValue (numberValue float) c limit) := by
          simp [Json.member?, transferMembers, hcoherence]
        exact items_of_member (numberValue float) hmember (h.coherence c hcoherence)

section

variable (snapshot : Snapshot D F) (limit : ℕ)

theorem countsPoints_spectrum :
    CountsPoints limit (.object (spectrumMembers double float snapshot limit))
      (axisPointCount (.object (spectrumMembers double float snapshot limit)))
      [bytes "spectrumDb"] := by
  refine ⟨_, emittedCount_le_limit snapshot.spectrumDb.length limit, ?_, ?_⟩
  · simp [axisPointCount, Json.member?, spectrumMembers, uniformAxisValue]
  · intro name hname
    obtain rfl := List.mem_singleton.mp hname
    exact items_of_member (numberValue float) (by simp [Json.member?, spectrumMembers]) rfl

theorem countsPoints_mtw {block : MtwBlock D F} (h : block.Agrees) (limit : ℕ) :
    CountsPoints limit (.object (mtwMembers double float block limit))
      (axisPointCount (.object (mtwMembers double float block limit)))
      [bytes "frequencyHz", bytes "magnitudeDb", bytes "phaseDeg", bytes "coherence"] := by
  refine ⟨_, emittedCount_le_limit block.magnitudeDb.length limit, ?_, ?_⟩
  · simp [axisPointCount, Json.member?, mtwMembers, explicitAxisValue]
  · intro name hname
    simp only [List.mem_cons, List.not_mem_nil, or_false] at hname
    rcases hname with rfl | rfl | rfl | rfl
    · exact items_of_member (numberValue double) (by simp [Json.member?, mtwMembers]) h.frequencyHz
    · exact items_of_member (numberValue float) (by simp [Json.member?, mtwMembers]) rfl
    · exact items_of_member (numberValue float) (by simp [Json.member?, mtwMembers]) h.phaseDeg
    · exact items_of_member (numberValue float) (by simp [Json.member?, mtwMembers]) h.coherence

theorem countsPoints_average {block : AverageBlock F} (h : block.Agrees) (limit : ℕ) :
    CountsPoints limit (.object (averageMembers float block limit))
      ((Json.object (averageMembers float block limit)).member? (bytes "pointCount"))
      [bytes "magnitudeDb", bytes "phaseDeg", bytes "phaseAgreement", bytes "weightedCoherence",
        bytes "contributors", bytes "absence"] := by
  refine ⟨_, emittedCount_le_limit block.magnitudeDb.length limit, ?_, ?_⟩
  · simp [Json.member?, averageMembers]
  · intro name hname
    simp only [List.mem_cons, List.not_mem_nil, or_false] at hname
    rcases hname with rfl | rfl | rfl | rfl | rfl | rfl
    · exact items_of_member (numberValue float) (by simp [Json.member?, averageMembers]) rfl
    · exact items_of_member (numberValue float) (by simp [Json.member?, averageMembers]) h.phaseDeg
    · exact items_of_member (numberValue float) (by simp [Json.member?, averageMembers])
        h.phaseAgreement
    · exact items_of_member (numberValue float) (by simp [Json.member?, averageMembers])
        h.weightedCoherence
    · exact items_of_member (fun c => natValue c.toNat) (by simp [Json.member?, averageMembers])
        h.contributors
    · exact items_of_member (fun a => .string (absenceName a))
        (by simp [Json.member?, averageMembers]) h.absence

/-! ### Blocks -/

theorem find?_elim {T : Type} (o : Option T) (name other : Bytes) (value : T → Json) :
    ((o.elim [] fun block => [(other, value block)] : List Member).find? fun m => m.1 = name) =
      if other = name then o.map fun block => (other, value block) else none := by
  cases o with
  | none => simp
  | some block =>
    by_cases h : other = name
    · simp [h]
    · simp [h]

theorem find?_ite (p : Prop) [Decidable p] (name other : Bytes) (value : Json) :
    ((if p then [] else [(other, value)] : List Member).find? fun m => m.1 = name) =
      if p then none else if other = name then some (other, value) else none := by
  by_cases hp : p
  · simp [hp]
  · by_cases h : other = name
    · simp [hp, h]
    · simp [hp, h]

theorem member?_snapshot_transfer :
    (snapshotValue double float snapshot limit).member? (bytes "transfer") =
      snapshot.transfer.map fun block =>
        .object (transferMembers double float snapshot block limit) := by
  simp [snapshotValue, Json.member?, statusMembers, blockMembers, List.find?_append, find?_elim,
    find?_ite, Function.comp_def]

theorem member?_snapshot_mtw :
    (snapshotValue double float snapshot limit).member? (bytes "mtw") =
      snapshot.mtw.map fun block => .object (mtwMembers double float block limit) := by
  simp [snapshotValue, Json.member?, statusMembers, blockMembers, List.find?_append, find?_elim,
    find?_ite, Function.comp_def]

theorem member?_snapshot_average :
    (snapshotValue double float snapshot limit).member? (bytes "average") =
      snapshot.average.map fun block => .object (averageMembers float block limit) := by
  simp [snapshotValue, Json.member?, statusMembers, blockMembers, List.find?_append, find?_elim,
    find?_ite, Function.comp_def]

theorem member?_snapshot_spectrum :
    (snapshotValue double float snapshot limit).member? (bytes "spectrum") =
      some (.object (spectrumMembers double float snapshot limit)) := by
  simp [snapshotValue, Json.member?, statusMembers]

theorem member?_snapshot_bands :
    (snapshotValue double float snapshot limit).member? (bytes "bands") =
      some (bandsValue float snapshot) := by
  simp [snapshotValue, Json.member?, statusMembers]

theorem member?_snapshot_positions :
    (snapshotValue double float snapshot limit).member? (bytes "positions") =
      if snapshot.positions = [] then none else some (positionsValue double float snapshot) := by
  by_cases h : snapshot.positions = []
  · simp [snapshotValue, Json.member?, statusMembers, blockMembers, List.find?_append, find?_elim,
      find?_ite, h]
  · simp [snapshotValue, Json.member?, statusMembers, blockMembers, List.find?_append, find?_elim,
      find?_ite, h]

end

/-- A block has the members in `/snapshot`, under its name, that its own body adds to the head;
neither has any where the block is absent. -/
structure SharesBlock (body union : Json) (head : List Member) (name : Bytes)
    (block : Option (List Member)) : Prop where
  body_eq : body = .object (head ++ block.getD [])
  union_eq : union.member? name = block.map Json.object

theorem sharesBlock_transfer (snapshot : Snapshot D F) (limit : ℕ) :
    SharesBlock (transferValue double float snapshot limit)
      (snapshotValue double float snapshot limit) (headMembers snapshot) (bytes "transfer")
      (snapshot.transfer.map fun block => transferMembers double float snapshot block limit) where
  body_eq := by
    rw [transferValue]
    cases snapshot.transfer with
    | none => rfl
    | some block => rfl
  union_eq := by
    rw [member?_snapshot_transfer, Option.map_map]
    rfl

theorem sharesBlock_mtw (snapshot : Snapshot D F) (limit : ℕ) :
    SharesBlock (mtwValue double float snapshot limit)
      (snapshotValue double float snapshot limit) (headMembers snapshot) (bytes "mtw")
      (snapshot.mtw.map fun block => mtwMembers double float block limit) where
  body_eq := by
    rw [mtwValue]
    cases snapshot.mtw with
    | none => rfl
    | some block => rfl
  union_eq := by
    rw [member?_snapshot_mtw, Option.map_map]
    rfl

theorem sharesBlock_average (snapshot : Snapshot D F) (limit : ℕ) :
    SharesBlock (averageValue float snapshot limit)
      (snapshotValue double float snapshot limit) (headMembers snapshot) (bytes "average")
      (snapshot.average.map fun block => averageMembers float block limit) where
  body_eq := by
    rw [averageValue]
    cases snapshot.average with
    | none => rfl
    | some block => rfl
  union_eq := by
    rw [member?_snapshot_average, Option.map_map]
    rfl

theorem sharesBlock_spectrum (snapshot : Snapshot D F) (limit : ℕ) :
    SharesBlock (spectrumValue double float snapshot limit)
      (snapshotValue double float snapshot limit) (headMembers snapshot) (bytes "spectrum")
      (some (spectrumMembers double float snapshot limit)) where
  body_eq := rfl
  union_eq := member?_snapshot_spectrum snapshot limit

/-! ### All of it -/

/-- The arrays of every block that is there are as long as its count says. -/
structure CountsAgree (double : FloatText D) (float : FloatText F) (snapshot : Snapshot D F)
    (limit : ℕ) : Prop where
  transfer : ∀ block, snapshot.transfer = some block →
    CountsPoints limit (.object (transferMembers double float snapshot block limit))
      (axisPointCount (.object (transferMembers double float snapshot block limit)))
      (transferArrays block)
  spectrum : CountsPoints limit (.object (spectrumMembers double float snapshot limit))
    (axisPointCount (.object (spectrumMembers double float snapshot limit))) [bytes "spectrumDb"]
  mtw : ∀ block, snapshot.mtw = some block →
    CountsPoints limit (.object (mtwMembers double float block limit))
      (axisPointCount (.object (mtwMembers double float block limit)))
      [bytes "frequencyHz", bytes "magnitudeDb", bytes "phaseDeg", bytes "coherence"]
  average : ∀ block, snapshot.average = some block →
    CountsPoints limit (.object (averageMembers float block limit))
      ((Json.object (averageMembers float block limit)).member? (bytes "pointCount"))
      [bytes "magnitudeDb", bytes "phaseDeg", bytes "phaseAgreement", bytes "weightedCoherence",
        bytes "contributors", bytes "absence"]

/-- `/snapshot` has the blocks of the other bodies. -/
structure SharesBlocks (double : FloatText D) (float : FloatText F) (snapshot : Snapshot D F)
    (limit : ℕ) : Prop where
  transfer : SharesBlock (transferValue double float snapshot limit)
    (snapshotValue double float snapshot limit) (headMembers snapshot) (bytes "transfer")
    (snapshot.transfer.map fun block => transferMembers double float snapshot block limit)
  spectrum : SharesBlock (spectrumValue double float snapshot limit)
    (snapshotValue double float snapshot limit) (headMembers snapshot) (bytes "spectrum")
    (some (spectrumMembers double float snapshot limit))
  mtw : SharesBlock (mtwValue double float snapshot limit)
    (snapshotValue double float snapshot limit) (headMembers snapshot) (bytes "mtw")
    (snapshot.mtw.map fun block => mtwMembers double float block limit)
  average : SharesBlock (averageValue float snapshot limit)
    (snapshotValue double float snapshot limit) (headMembers snapshot) (bytes "average")
    (snapshot.average.map fun block => averageMembers float block limit)
  bands : (snapshotValue double float snapshot limit).member? (bytes "bands") =
    (bandsBodyValue float snapshot).member? (bytes "bands")
  positions : (snapshotValue double float snapshot limit).member? (bytes "positions") =
    if snapshot.positions = [] then none
    else (positionsBodyValue double float snapshot).member? (bytes "positions")

theorem countsAgree (double : FloatText D) (float : FloatText F) {snapshot : Snapshot D F}
    (hagree : snapshot.Agrees) (limit : ℕ) : CountsAgree double float snapshot limit where
  transfer block hblock := countsPoints_transfer snapshot (hagree.transfer block hblock) limit
  spectrum := countsPoints_spectrum snapshot limit
  mtw block hblock := countsPoints_mtw (hagree.mtw block hblock) limit
  average block hblock := countsPoints_average (hagree.average block hblock) limit

theorem sharesBlocks (double : FloatText D) (float : FloatText F) (snapshot : Snapshot D F)
    (limit : ℕ) : SharesBlocks double float snapshot limit where
  transfer := sharesBlock_transfer snapshot limit
  spectrum := sharesBlock_spectrum snapshot limit
  mtw := sharesBlock_mtw snapshot limit
  average := sharesBlock_average snapshot limit
  bands := by
    rw [member?_snapshot_bands]
    simp [bandsBodyValue, headMembers, Json.member?]
  positions := by
    rw [member?_snapshot_positions]
    simp [positionsBodyValue, headMembers, Json.member?]

/-- **Headline.** Whatever blocks a snapshot has, whatever values and whatever request: every body
is JSON in UTF-8 and no object in it has a key twice, a string is decoded to its own bytes, the
arrays of a block are as long as its count says and no longer than the request lets them be, and a
block is the same in `/snapshot` as in its own body. -/
theorem api_bodies (hd : double.Prints) (hf : float.Prints) (snapshot : Snapshot D F)
    (settings : ApiSettings) (request : Request) (hagree : snapshot.Agrees)
    (hnames : ∀ p ∈ snapshot.positions, IsUtf8 p.name) :
    ServesBodies double float snapshot settings request ∧
      (∀ text, readJson (stringValue text) = some (.string text)) ∧
      CountsAgree double float snapshot (limitOf request) ∧
      SharesBlocks double float snapshot (limitOf request) :=
  ⟨servesBodies hd hf hnames settings request, readJson_stringValue,
    countsAgree double float hagree (limitOf request),
    sharesBlocks double float snapshot (limitOf request)⟩

/-- Whole numbers, and one that is not finite. -/
def wholeNumbers : FloatText (Option ℤ) := ⟨Option.isSome, fun x => x.elim [] decimalInt⟩

theorem prints_wholeNumbers : wholeNumbers.Prints := by
  intro x hx
  obtain ⟨i, rfl⟩ := Option.isSome_iff_exists.mp hx
  exact ⟨.ofInt i, NumberForm.valid_ofInt i, (NumberForm.text_ofInt i).symm⟩

/-- Three points and a microphone with a quote in its name. -/
def threePoints : Snapshot (Option ℤ) (Option ℤ) where
  sequence := 7
  sampleRate := some 48000
  fftSize := 4
  fraction := 3
  bands := []
  spectrumDb := [some (-3), none, some 0]
  transfer := some ⟨[some 1, none, some 2], [some 0, some 90, none], none, some 4, -12⟩
  mtw := none
  hasReference := true
  framesAnalysed := 16
  droppedSamples := 0
  average := none
  positions := [⟨0, bytes "the \"back\" row", some (-20), none, some 4, true, false, .member⟩]

/-- Asked for two points, the transfer body has the first two of each array. -/
theorem api_bodies_threePoints :
    readJson (serialiseTransfer wholeNumbers wholeNumbers threePoints { points := 2 }) =
      some (.object [(bytes "schemaVersion", natValue 1), (bytes "sequence", natValue 7),
        (bytes "axis", .object [(bytes "kind", .string (bytes "uniform")),
          (bytes "sampleRate", intValue 48000), (bytes "fftSize", natValue 4),
          (bytes "pointCount", natValue 2)]),
        (bytes "effectiveAverages", intValue 4),
        (bytes "appliedDelaySamples", intValue (-12)),
        (bytes "magnitudeDb", .array [intValue 1, .null]),
        (bytes "phaseDeg", .array [intValue 0, intValue 90])]) := by
  have hagree : threePoints.Agrees := by
    refine ⟨?_, ?_, ?_⟩
    · rintro block ⟨⟩
      refine ⟨rfl, ?_⟩
      rintro c ⟨⟩
    · rintro block ⟨⟩
    · rintro block ⟨⟩
  have hnames : ∀ p ∈ threePoints.positions, IsUtf8 p.name := by
    intro p hp
    obtain rfl := List.mem_singleton.mp hp
    exact isUtf8_bytes _
  exact (api_bodies prints_wholeNumbers prints_wholeNumbers threePoints {} { points := 2 } hagree
    hnames).1.transfer.readJson

end Promises

end Api

end RtaTool
