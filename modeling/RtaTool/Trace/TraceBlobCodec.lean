import RtaTool.Lib.ByteReader
import RtaTool.Trace.SessionCodec

/-!
# The trace blob

`TraceBlobCodec.cpp`: the columns of a capture as 32-bit patterns behind a header that carries only
what is needed to read them back, the point count, which columns are present and the trace id.
Everything else about the capture lives in the index and is handed to the decoder beside the blob.

One relation says what the decoder accepts: the bytes of a capture under *some* presence word whose
known bits name its columns. Both directions of the round trip are read off it. The encoder writes
the length of the id in 32 bits and drops what does not fit; the decoder looks at three bits of the
presence word and never at the others.

## Main definitions

* `encodeTraceBlob`, `readTrace`, `decodeTraceBlob`
* `blobBytes` -- the bytes of a capture under a given presence word
* `blobPointCount`, `blobPresence`, `blobId` -- what a blob says of itself

## Main results

* `decodeTraceBlob_eq_ok_iff` -- what the decoder accepts
* `decodeTraceBlob_encodeTraceBlob_iff` -- **Headline.** A capture is read back exactly when the
  length of its id fits in 32 bits; mismatched metadata is refused; nothing is read past the end
  and nothing half-written
* `encodeTraceBlob_eq_of_decodeTraceBlob_iff` -- **Headline.** An accepted blob is what the encoder
  writes exactly when it sets no presence bit above the third
-/

namespace RtaTool

open ByteReader

/-! ### The encoder -/

/-- `kMagnitudeBit`. -/
def kMagnitudeBit : UInt32 := (1 : UInt32) <<< 0

/-- `kPhaseBit`. -/
def kPhaseBit : UInt32 := (1 : UInt32) <<< 1

/-- `kCoherenceBit`. -/
def kCoherenceBit : UInt32 := (1 : UInt32) <<< 2

/-- The presence word of a capture. -/
def Trace.presence (tr : Trace UInt32) : UInt32 :=
  (if tr.has .magnitude then kMagnitudeBit else 0) ||| (if tr.has .phase then kPhaseBit else 0) |||
    (if tr.has .coherence then kCoherenceBit else 0)

/-- `appendFloats`: bit patterns, by the same path as the header words. -/
def appendFloats (values : List UInt32) : Bytes := values.flatMap u32Bytes

/-- The columns a capture has, in the order of their presence bits. -/
def Trace.columnBytes (tr : Trace UInt32) : Bytes :=
  (if tr.has .magnitude then appendFloats (tr.field .magnitude) else []) ++
    (if tr.has .phase then appendFloats (tr.field .phase) else []) ++
    (if tr.has .coherence then appendFloats (tr.field .coherence) else [])

/-- The blob of a capture with `presence` for its presence word. -/
def blobBytes (presence : UInt32) (tr : Trace UInt32) : Bytes :=
  bytes "RTAT" ++ u32Bytes tr.pointCount.toUInt32 ++ u32Bytes presence ++
    u32Bytes tr.info.id.length.toUInt32 ++ tr.info.id ++ tr.columnBytes

/-- `encodeTraceBlob`. -/
def encodeTraceBlob (tr : Trace UInt32) : Bytes := blobBytes tr.presence tr

/-! ### The decoder -/

/-- One optional column: read where its bit is set, and stored through `set`. -/
def readColumn (present : Bool) (pointCount : ℕ)
    (set : Trace UInt32 → List UInt32 → Bool × Trace UInt32) (tr : Trace UInt32) :
    ByteReader (Trace UInt32) :=
  if present then do
    let values ← readN readU32 pointCount
    refuseIf ((set tr values).1 = false)
    return (set tr values).2
  else return tr

/-- The body of `decodeTraceBlob`, up to the check that nothing is left. -/
def readTrace (info : CaptureMeta) : ByteReader (Trace UInt32) := do
  let magic ← readBytes 4
  refuseIf (magic ≠ bytes "RTAT")
  let pointCount ← readU32
  refuseIf (pointCount.toNat ≠ pointCountFor info.fftSize)
  let presence ← readU32
  let idLen ← readU32
  let id ← readBytes idLen.toNat
  refuseIf (id ≠ info.id)
  refuseIf (presence &&& kMagnitudeBit = 0)
  let magnitude ← readN readU32 pointCount.toNat
  let tr ← ofOption (Trace.make info magnitude)
  let tr ← readColumn (presence &&& kPhaseBit ≠ 0) pointCount.toNat Trace.setPhase tr
  readColumn (presence &&& kCoherenceBit ≠ 0) pointCount.toNat Trace.setCoherence tr

/-- `decodeTraceBlob(blob, meta, out)`: the status, and what `out` holds afterwards. -/
def decodeTraceBlob (blob : Bytes) (info : CaptureMeta) (out : Option (Trace UInt32)) :
    Except PastEnd (DecodeStatus × Option (Trace UInt32)) :=
  match readTrace info blob with
  | .ok (some (tr, rest)) => .ok (if rest ≠ [] then (.malformed, out) else (.ok, some tr))
  | .ok none => .ok (.malformed, out)
  | .error e => .error e

/-! ### What a blob says of itself -/

/-- The word at `offset`. -/
def wordAt (blob : Bytes) (offset : ℕ) : Option UInt32 :=
  if offset + 4 ≤ blob.length then some (u32OfBytes ((blob.drop offset).take 4)) else none

/-- The point count a blob states. -/
def blobPointCount (blob : Bytes) : Option ℕ := (wordAt blob 4).map UInt32.toNat

/-- The presence word of a blob. -/
def blobPresence (blob : Bytes) : Option UInt32 := wordAt blob 8

/-- The trace id a blob states. -/
def blobId (blob : Bytes) : Option Bytes :=
  (wordAt blob 12).bind fun n =>
    if 16 + n.toNat ≤ blob.length then some ((blob.drop 16).take n.toNat) else none

/-! ### Presence words -/

/-- The bits the format gives a meaning to. -/
def knownBits : UInt32 := kMagnitudeBit ||| kPhaseBit ||| kCoherenceBit

theorem and_knownBits_eq_iff (w : UInt32) (a b c : Bool) :
    w &&& knownBits = (if a then kMagnitudeBit else 0) ||| (if b then kPhaseBit else 0) |||
        (if c then kCoherenceBit else 0) ↔
      decide (w &&& kMagnitudeBit ≠ 0) = a ∧ decide (w &&& kPhaseBit ≠ 0) = b ∧
        decide (w &&& kCoherenceBit ≠ 0) = c := by
  have hmask : ∀ m, m &&& knownBits = m → w &&& m = (w &&& knownBits) &&& m := by
    intro m hm
    rw [UInt32.and_assoc, UInt32.and_comm knownBits m, hm]
  rw [hmask kMagnitudeBit rfl, hmask kPhaseBit rfl, hmask kCoherenceBit rfl]
  -- only three bits are left, so there are eight words to look at
  have hlt : (w &&& knownBits).toNat < 8 := by
    rw [UInt32.toNat_and]
    exact Nat.and_lt_two_pow (n := 3) _ (by decide)
  have htable : ∀ n : Fin 8, ∀ a b c : Bool,
      UInt32.ofNat n = (if a then kMagnitudeBit else 0) ||| (if b then kPhaseBit else 0) |||
          (if c then kCoherenceBit else 0) ↔
        decide (UInt32.ofNat n &&& kMagnitudeBit ≠ 0) = a ∧
          decide (UInt32.ofNat n &&& kPhaseBit ≠ 0) = b ∧
          decide (UInt32.ofNat n &&& kCoherenceBit ≠ 0) = c := by
    decide
  have h := htable ⟨_, hlt⟩ a b c
  rwa [UInt32.ofNat_toNat] at h

/-- No bit above the third: the word is its known bits. -/
theorem and_knownBits_eq_self_iff (w : UInt32) : w &&& knownBits = w ↔ w < 8 := by
  rw [← UInt32.toNat_inj, UInt32.lt_iff_toNat_lt, UInt32.toNat_and]
  have h7 : knownBits.toNat = 2 ^ 3 - 1 := by decide
  rw [h7, Nat.and_two_pow_sub_one_eq_mod]
  exact Nat.mod_eq_iff_lt (by decide)

theorem Trace.has_magnitude (tr : Trace UInt32) : tr.has .magnitude = true := by
  rw [Trace.has, Trace.field, Bool.not_eq_true', List.isEmpty_eq_false_iff]
  exact tr.magnitude_ne_nil

/-! ### What the decoder accepts -/

/-- A column is read and stored where its bit is set; otherwise nothing is consumed. -/
theorem readColumn_parses (present : Bool) (n : ℕ)
    (set : Trace UInt32 → List UInt32 → Bool × Trace UInt32) (tr : Trace UInt32) :
    (readColumn present n set tr).Parses fun t bs =>
      (present = true ∧ ∃ values, values.length = n ∧ set tr values = (true, t) ∧
        bs = appendFloats values) ∨ (present = false ∧ t = tr ∧ bs = []) := by
  cases present with
  | false =>
    refine (Parses.pure tr).congr fun t bs => ?_
    simp
  | true =>
    refine ((readN_parses readU32_parses n).bind fun values _ _ =>
      (Parses.refuseIf _).bind fun _ _ _ => Parses.pure (set tr values).2).congr fun t bs => ?_
    constructor
    · rintro ⟨values, _, _, ⟨hlen, rfl⟩, ⟨_, _, _, ⟨hset, rfl⟩, ⟨rfl, rfl⟩, rfl⟩, rfl⟩
      refine .inl ⟨rfl, values, hlen, ?_, by rw [List.append_nil, List.append_nil]; rfl⟩
      exact Prod.ext (Bool.of_not_eq_false hset) rfl
    · rintro (⟨-, values, hlen, hset, rfl⟩ | ⟨h, -⟩)
      · exact ⟨values, _, [], ⟨hlen, rfl⟩, ⟨(), [], [], ⟨by simp [hset], rfl⟩,
          ⟨by rw [hset], rfl⟩, rfl⟩, (List.append_nil _).symm⟩
      · cases h

theorem Trace.has_eq_true_iff {tr : Trace UInt32} {f : Trace.Field} :
    tr.has f = true ↔ tr.field f ≠ [] := by
  rw [Trace.has, Bool.not_eq_true', List.isEmpty_eq_false_iff]

section

variable (present : Bool) (n : ℕ) (tr : Trace UInt32) (hn : tr.magnitude.length = n)

include hn

theorem readPhase_parses (hphase : tr.phase = []) :
    (readColumn present n Trace.setPhase tr).Parses fun t bs =>
      t.info = tr.info ∧ t.magnitude = tr.magnitude ∧ t.coherence = tr.coherence ∧
        present = t.has .phase ∧
        bs = if t.has .phase then appendFloats (t.field .phase) else [] := by
  refine (readColumn_parses present n _ tr).congr fun t bs => ?_
  constructor
  · rintro (⟨rfl, values, hlen, hset, rfl⟩ | ⟨rfl, rfl, rfl⟩)
    · obtain ⟨hlen', hinfo, hmag, rfl, hcoh⟩ := Trace.setPhase_eq_true_iff.mp hset
      have hhas : t.has .phase = true := by
        rw [Trace.has_eq_true_iff, Trace.field, ← List.length_pos_iff, hlen']
        exact List.length_pos_iff.mpr tr.magnitude_ne_nil
      exact ⟨hinfo, hmag, hcoh, hhas.symm, by rw [if_pos hhas]; rfl⟩
    · simp [Trace.has, Trace.field, hphase]
  · rintro ⟨hinfo, hmag, hcoh, rfl, rfl⟩
    by_cases hhas : t.has .phase = true
    · have hlen := t.phase_length.resolve_left (Trace.has_eq_true_iff.mp hhas)
      rw [hmag] at hlen
      exact .inl ⟨hhas, t.phase, hlen.trans hn,
        Trace.setPhase_eq_true_iff.mpr ⟨hlen, hinfo, hmag, rfl, hcoh⟩, if_pos hhas⟩
    · have hnil : t.phase = [] := by_contra fun h => hhas (Trace.has_eq_true_iff.mpr h)
      exact .inr ⟨Bool.not_eq_true _ ▸ hhas, Trace.ext hinfo hmag (hnil.trans hphase.symm) hcoh,
        if_neg hhas⟩

theorem readCoherence_parses (hcoh : tr.coherence = []) :
    (readColumn present n Trace.setCoherence tr).Parses fun t bs =>
      t.info = tr.info ∧ t.magnitude = tr.magnitude ∧ t.phase = tr.phase ∧
        present = t.has .coherence ∧
        bs = if t.has .coherence then appendFloats (t.field .coherence) else [] := by
  refine (readColumn_parses present n _ tr).congr fun t bs => ?_
  constructor
  · rintro (⟨rfl, values, hlen, hset, rfl⟩ | ⟨rfl, rfl, rfl⟩)
    · obtain ⟨hlen', hinfo, hmag, hphase, rfl⟩ := Trace.setCoherence_eq_true_iff.mp hset
      have hhas : t.has .coherence = true := by
        rw [Trace.has_eq_true_iff, Trace.field, ← List.length_pos_iff, hlen']
        exact List.length_pos_iff.mpr tr.magnitude_ne_nil
      exact ⟨hinfo, hmag, hphase, hhas.symm, by rw [if_pos hhas]; rfl⟩
    · simp [Trace.has, Trace.field, hcoh]
  · rintro ⟨hinfo, hmag, hphase, rfl, rfl⟩
    by_cases hhas : t.has .coherence = true
    · have hlen := t.coherence_length.resolve_left (Trace.has_eq_true_iff.mp hhas)
      rw [hmag] at hlen
      exact .inl ⟨hhas, t.coherence, hlen.trans hn,
        Trace.setCoherence_eq_true_iff.mpr ⟨hlen, hinfo, hmag, hphase, rfl⟩, if_pos hhas⟩
    · have hnil : t.coherence = [] := by_contra fun h => hhas (Trace.has_eq_true_iff.mpr h)
      exact .inr ⟨Bool.not_eq_true _ ▸ hhas, Trace.ext hinfo hmag hphase (hnil.trans hcoh.symm),
        if_neg hhas⟩

end

theorem readTrace_parses (info : CaptureMeta) :
    (readTrace info).Parses fun t bs =>
      t.info = info ∧ t.pointCount < 2 ^ 32 ∧ t.info.id.length < 2 ^ 32 ∧
        ∃ presence, presence &&& knownBits = t.presence ∧ bs = blobBytes presence t := by
  refine ((readBytes_parses 4).bind fun magic _ _ => (Parses.refuseIf _).bind fun _ _ _ =>
    readU32_parses.bind fun pointCount _ _ => (Parses.refuseIf _).bind fun _ _ hcount =>
    readU32_parses.bind fun presence _ _ => readU32_parses.bind fun idLen _ _ =>
    (readBytes_parses idLen.toNat).bind fun id _ _ => (Parses.refuseIf _).bind fun _ _ _ =>
    (Parses.refuseIf _).bind fun _ _ _ =>
    (readN_parses readU32_parses pointCount.toNat).bind fun magnitude _ hmag =>
    (Parses.ofOption _).bind fun tr _ htr =>
    (readPhase_parses _ pointCount.toNat tr ?_ ?_).bind fun tr' _ htr' =>
    readCoherence_parses _ pointCount.toNat tr' ?_ ?_).congr fun t bs => ?_
  · rw [(Trace.make_eq_some_iff.mp htr.1).2.1, hmag.1]
  · exact (Trace.make_eq_some_iff.mp htr.1).2.2.1
  · rw [htr'.2.1, (Trace.make_eq_some_iff.mp htr.1).2.1, hmag.1]
  · rw [htr'.2.2.1, (Trace.make_eq_some_iff.mp htr.1).2.2.2]
  constructor
  · rintro ⟨magic, _, _, ⟨-, rfl⟩, ⟨-, _, _, ⟨hmagic, rfl⟩, hrest⟩, rfl⟩
    obtain ⟨⟨pointCount, _, _, rfl, ⟨-, _, _, ⟨hcount, rfl⟩, hrest⟩, rfl⟩, rfl⟩ := hrest
    obtain ⟨⟨presence, _, _, rfl, ⟨idLen, _, _, rfl, hrest⟩, rfl⟩, rfl⟩ := hrest
    obtain ⟨⟨id, _, _, ⟨hidLen, rfl⟩, ⟨-, _, _, ⟨hid, rfl⟩, hrest⟩, rfl⟩, rfl⟩ := hrest
    obtain ⟨⟨-, _, _, ⟨hbit, rfl⟩, ⟨magnitude, _, _, ⟨hmag, rfl⟩, hrest⟩, rfl⟩, rfl⟩ := hrest
    obtain ⟨⟨tr, _, _, ⟨hmake, rfl⟩, ⟨tr', _, _, hphase, hcoh, rfl⟩, rfl⟩, rfl⟩ := hrest
    obtain ⟨i₀, m₀, -, -⟩ := Trace.make_eq_some_iff.mp hmake
    obtain ⟨i₁, m₁, -, p₁, rfl⟩ := hphase
    obtain ⟨i₂, m₂, p₂, c₂, rfl⟩ := hcoh
    have hcast : ∀ w : UInt32, w.toNat.toUInt32 = w := fun w => UInt32.ofNat_toNat
    have hinfo : t.info = info := i₂.trans (i₁.trans i₀)
    have hmagt : t.magnitude = magnitude := m₂.trans (m₁.trans m₀)
    have hpt : tr'.field .phase = t.field .phase := p₂.symm
    have hht : tr'.has .phase = t.has .phase := by rw [Trace.has, Trace.has, hpt]
    have hlen : t.pointCount = pointCount.toNat := by rw [Trace.pointCount, hmagt, hmag]
    have hidt : t.info.id.length = idLen.toNat := by rw [hinfo, ← not_not.mp hid, hidLen]
    refine ⟨hinfo, hlen ▸ pointCount.toNat_lt, hidt ▸ idLen.toNat_lt, presence,
      (and_knownBits_eq_iff _ _ _ _).mpr
        ⟨(decide_eq_true hbit).trans t.has_magnitude.symm, p₁.trans hht, c₂⟩, ?_⟩
    rw [blobBytes, Trace.columnBytes, if_pos t.has_magnitude, Trace.field, hmagt, hlen, hidt, hinfo,
      ← not_not.mp hid, not_not.mp hmagic, hpt, hht, hcast, hcast]
    simp only [List.nil_append, List.append_nil, List.append_assoc, appendFloats]
  · rintro ⟨rfl, hcount, hidLen, presence, hpres, rfl⟩
    obtain ⟨hm, hp, hc⟩ := (and_knownBits_eq_iff _ _ _ _).mp hpres
    have hword : ∀ {n : ℕ}, n < 2 ^ 32 → n.toUInt32.toNat = n := fun h => UInt32.toNat_ofNat_of_lt' h
    have hmake : Trace.make t.info t.magnitude = some ⟨t.info, t.magnitude, [], [],
        t.magnitude_ne_nil, t.magnitude_length, .inl rfl, .inl rfl⟩ :=
      Trace.make_eq_some_iff.mpr ⟨rfl, rfl, rfl, rfl⟩
    refine ⟨bytes "RTAT", _, _, ⟨rfl, rfl⟩, ⟨(), _, _, ⟨not_not.mpr rfl, rfl⟩,
      ⟨t.pointCount.toUInt32, _, _, rfl, ⟨(), _, _, ⟨?_, rfl⟩, ⟨presence, _, _, rfl,
      ⟨t.info.id.length.toUInt32, _, _, rfl, ⟨t.info.id, _, _, ⟨(hword hidLen).symm, rfl⟩,
      ⟨(), _, _, ⟨not_not.mpr rfl, rfl⟩, ⟨(), _, _, ⟨?_, rfl⟩,
      ⟨t.magnitude, _, _, ⟨(hword hcount).symm, rfl⟩, ⟨_, _, _, ⟨hmake, rfl⟩,
      ⟨{ t with coherence := [], coherence_length := .inl rfl }, _, _,
        ⟨rfl, rfl, rfl, hp, rfl⟩, ⟨rfl, rfl, rfl, hc, rfl⟩, rfl⟩, rfl⟩, rfl⟩, rfl⟩, rfl⟩, rfl⟩,
      rfl⟩, rfl⟩, rfl⟩, rfl⟩, rfl⟩, ?_⟩
    · rw [hword hcount]
      exact not_not.mpr t.magnitude_length
    · exact of_decide_eq_true (hm.trans t.has_magnitude)
    · rw [blobBytes, Trace.columnBytes, if_pos t.has_magnitude, Trace.field]
      simp only [List.nil_append, List.append_assoc, appendFloats]
      rfl

section

variable (blob : Bytes) (info : CaptureMeta) (out : Option (Trace UInt32))

/-- A capture, or a refusal that leaves `out` as it was: no blob makes the decoder read past its
end. -/
theorem decodeTraceBlob_cases :
    decodeTraceBlob blob info out = .ok (.malformed, out) ∨
      ∃ tr, decodeTraceBlob blob info out = .ok (.ok, some tr) := by
  rw [decodeTraceBlob]
  split
  · split
    · exact .inl rfl
    · exact .inr ⟨_, rfl⟩
  · exact .inl rfl
  · rename_i e he
    exact absurd he ((readTrace_parses info).inBounds blob e)

/-- The decoder accepts the bytes of a capture of this metadata, under any presence word whose known
bits name its columns. -/
theorem decodeTraceBlob_eq_ok_iff (tr : Trace UInt32) :
    decodeTraceBlob blob info out = .ok (.ok, some tr) ↔
      tr.info = info ∧ tr.pointCount < 2 ^ 32 ∧ tr.info.id.length < 2 ^ 32 ∧
        ∃ presence, presence &&& knownBits = tr.presence ∧ blob = blobBytes presence tr := by
  have hread := (readTrace_parses info).accepts blob tr []
  simp only [List.append_nil, exists_eq_right'] at hread
  refine Iff.trans ?_ hread
  rw [decodeTraceBlob]
  constructor
  · intro h
    split at h
    · split at h
      · cases h
      · rename_i tr' rest heq hrest
        cases h
        rw [heq, not_not.mp hrest]
    · cases h
    · cases h
  · intro h
    rw [h]
    rfl

end

/-! ### The header of accepted bytes -/

theorem wordAt_append (before : Bytes) (w : UInt32) (rest : Bytes) :
    wordAt (before ++ u32Bytes w ++ rest) before.length = some w := by
  rw [wordAt, if_pos (by simp), List.append_assoc, List.drop_left,
    List.take_left' (length_u32Bytes w), u32OfBytes_u32Bytes]

variable {tr : Trace UInt32}

theorem blobPointCount_blobBytes (presence : UInt32)
    (h : tr.pointCount < 2 ^ 32) : blobPointCount (blobBytes presence tr) = some tr.pointCount := by
  have hw := wordAt_append (bytes "RTAT") tr.pointCount.toUInt32
    (u32Bytes presence ++ u32Bytes tr.info.id.length.toUInt32 ++ tr.info.id ++ tr.columnBytes)
  simp only [← List.append_assoc] at hw
  rw [blobPointCount, blobBytes, show wordAt _ 4 = _ from hw, Option.map_some]
  exact congrArg some (UInt32.toNat_ofNat_of_lt' h)

theorem blobPresence_blobBytes (presence : UInt32) (tr : Trace UInt32) :
    blobPresence (blobBytes presence tr) = some presence := by
  have hw := wordAt_append (bytes "RTAT" ++ u32Bytes tr.pointCount.toUInt32) presence
    (u32Bytes tr.info.id.length.toUInt32 ++ tr.info.id ++ tr.columnBytes)
  simp only [← List.append_assoc] at hw
  exact hw

theorem blobId_blobBytes (presence : UInt32)
    (h : tr.info.id.length < 2 ^ 32) : blobId (blobBytes presence tr) = some tr.info.id := by
  have hw := wordAt_append
    (bytes "RTAT" ++ u32Bytes tr.pointCount.toUInt32 ++ u32Bytes presence)
    tr.info.id.length.toUInt32 (tr.info.id ++ tr.columnBytes)
  simp only [← List.append_assoc] at hw
  have hlen : tr.info.id.length.toUInt32.toNat = tr.info.id.length := UInt32.toNat_ofNat_of_lt' h
  have hhead : (bytes "RTAT" ++ u32Bytes tr.pointCount.toUInt32 ++ u32Bytes presence ++
      u32Bytes tr.info.id.length.toUInt32).length = 16 := rfl
  rw [blobId, blobBytes, show wordAt _ 12 = _ from hw, Option.bind_some, hlen, if_pos,
    List.append_assoc, List.drop_left' hhead, List.take_left]
  rw [List.append_assoc, List.length_append, hhead, List.length_append]
  omega

theorem blobBytes_injective (tr : Trace UInt32) :
    Function.Injective fun presence => blobBytes presence tr := by
  intro p q h
  have hp := blobPresence_blobBytes p tr
  rw [show blobBytes p tr = blobBytes q tr from h, blobPresence_blobBytes] at hp
  exact (Option.some.inj hp).symm

/-! ### The round trip -/

theorem Trace.presence_and_knownBits (tr : Trace UInt32) :
    tr.presence &&& knownBits = tr.presence := by
  rw [Trace.presence]
  generalize tr.has .magnitude = a
  generalize tr.has .phase = b
  generalize tr.has .coherence = c
  revert a b c
  decide

theorem Trace.pointCount_lt (h : tr.info.fftSize < 2 ^ 31) :
    tr.pointCount < 2 ^ 32 := by
  rw [Trace.pointCount, tr.magnitude_length, pointCountFor]
  split <;> omega

/-- **Headline.** A capture, with any bit patterns in its columns, is read back exactly when the
length of its id fits in the 32 bits the blob has for it. Whatever the blob, metadata that disagrees
with it is refused, and a refusal leaves the output as it was. -/
theorem decodeTraceBlob_encodeTraceBlob_iff (tr : Trace UInt32) (hint : tr.info.fftSize < 2 ^ 31)
    (out : Option (Trace UInt32)) :
    (decodeTraceBlob (encodeTraceBlob tr) tr.info out = .ok (.ok, some tr) ↔
        tr.info.id.length < 2 ^ 32) ∧
      ∀ (blob : Bytes) (info : CaptureMeta) (out : Option (Trace UInt32)),
        (blobId blob ≠ some info.id ∨ blobPointCount blob ≠ some (pointCountFor info.fftSize) →
          decodeTraceBlob blob info out = .ok (.malformed, out)) ∧
        (decodeTraceBlob blob info out = .ok (.malformed, out) ∨
          ∃ t, decodeTraceBlob blob info out = .ok (.ok, some t)) := by
  refine ⟨?_, fun blob info out => ⟨fun hne => ?_, decodeTraceBlob_cases blob info out⟩⟩
  · rw [decodeTraceBlob_eq_ok_iff]
    exact ⟨fun h => h.2.2.1,
      fun h => ⟨rfl, tr.pointCount_lt hint, h, tr.presence, tr.presence_and_knownBits, rfl⟩⟩
  · refine (decodeTraceBlob_cases blob info out).resolve_right ?_
    rintro ⟨t, ht⟩
    obtain ⟨rfl, hcount, hid, presence, -, rfl⟩ := (decodeTraceBlob_eq_ok_iff _ _ _ _).mp ht
    rw [blobId_blobBytes presence hid, blobPointCount_blobBytes presence hcount, Trace.pointCount,
      t.magnitude_length] at hne
    exact hne.elim (absurd rfl) (absurd rfl)

/-- Two points: a quiet NaN with a payload and a negative zero, and a coherence. -/
def twoPointTrace (id : Bytes) : Trace UInt32 where
  info := { id := id, fftSize := 2 }
  magnitude := [0x7FC00001, 0x80000000]
  phase := []
  coherence := [0x3F800000, 0]
  magnitude_ne_nil := List.cons_ne_nil _ _
  magnitude_length := (by decide : 2 = pointCountFor 2)
  phase_length := .inl rfl
  coherence_length := .inr rfl

theorem decodeTraceBlob_twoPointTrace :
    decodeTraceBlob (encodeTraceBlob (twoPointTrace (bytes "a"))) (twoPointTrace (bytes "a")).info
      none = .ok (.ok, some (twoPointTrace (bytes "a"))) :=
  (decodeTraceBlob_encodeTraceBlob_iff (twoPointTrace (bytes "a")) (by decide) none).1.mpr
    (by decide)

/-- The length of an id of `2 ^ 32` bytes is written as zero, and the decoder finds an empty id. -/
theorem decodeTraceBlob_loses_long_id :
    ¬ ∀ (tr : Trace UInt32) (out : Option (Trace UInt32)), tr.info.fftSize < 2 ^ 31 →
      decodeTraceBlob (encodeTraceBlob tr) tr.info out = .ok (.ok, some tr) := by
  intro h
  have hok := h (twoPointTrace (List.replicate (2 ^ 32) 97)) none (by rw [twoPointTrace]; decide)
  have hlen := ((decodeTraceBlob_eq_ok_iff _ _ _ _).mp hok).2.2.1
  rw [twoPointTrace, List.length_replicate] at hlen
  exact absurd hlen (Nat.lt_irrefl _)

/-! ### Accepted blobs -/

/-- **Headline.** An accepted blob is written back byte for byte exactly when its presence word sets
no bit above the third. -/
theorem encodeTraceBlob_eq_of_decodeTraceBlob_iff {blob : Bytes} {info : CaptureMeta}
    {out : Option (Trace UInt32)} {tr : Trace UInt32}
    (h : decodeTraceBlob blob info out = .ok (.ok, some tr)) :
    encodeTraceBlob tr = blob ↔ ∃ presence ∈ blobPresence blob, presence < 8 := by
  obtain ⟨-, -, -, presence, hknown, rfl⟩ := (decodeTraceBlob_eq_ok_iff _ _ _ _).mp h
  rw [blobPresence_blobBytes, encodeTraceBlob, (blobBytes_injective tr).eq_iff]
  simp only [Option.mem_some_iff, exists_eq_left', ← and_knownBits_eq_self_iff, hknown, eq_comm]

/-- A blob with magnitude and coherence, and with `extra` among its presence bits. -/
def twoPointBlob (extra : UInt8) : Bytes :=
  [0x52, 0x54, 0x41, 0x54, 2, 0, 0, 0, 5 ||| extra, 0, 0, 0, 1, 0, 0, 0, 97,
    1, 0, 0xC0, 0x7F, 0, 0, 0, 0x80, 0, 0, 0x80, 0x3F, 0, 0, 0, 0]

theorem encodeTraceBlob_twoPointBlob :
    encodeTraceBlob (twoPointTrace (bytes "a")) = twoPointBlob 0 :=
  (encodeTraceBlob_eq_of_decodeTraceBlob_iff
    (show decodeTraceBlob (twoPointBlob 0) (twoPointTrace (bytes "a")).info none = _ from
      rfl)).mpr ⟨5, rfl, by decide⟩

/-- A blob that announces a fourth column is accepted, and the announcement is gone from the next
save. -/
theorem decodeTraceBlob_drops_presence_bit :
    ¬ ∀ (blob : Bytes) (info : CaptureMeta) (out : Option (Trace UInt32)) (tr : Trace UInt32),
      decodeTraceBlob blob info out = .ok (.ok, some tr) → encodeTraceBlob tr = blob := by
  intro h
  exact absurd (h (twoPointBlob 8) (twoPointTrace (bytes "a")).info none
    (twoPointTrace (bytes "a")) rfl) (by decide)

end RtaTool
