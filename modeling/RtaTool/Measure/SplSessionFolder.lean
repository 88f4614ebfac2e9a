import RtaTool.Export.SplLogWriter
import RtaTool.Lib.CivilTime

/-!
# The folder of an SPL session

A session's log goes into a folder of its own, named after the second it is started in and the epoch
of the bus at that moment. Two moments in one second have one stamp; the epoch is there to tell them
apart.

## Main definitions

* `formatUtcTimestamp`, `sessionFolderName`

## Main results

* `sessionFolderName_inj` -- a name says which second and which epoch it was made from
* `segmentName_channelStem_inj` -- and the name of a segment which channel and which number
-/

namespace RtaTool

/-! ### Names -/

/-- `%m`, `%d`, `%H`, `%M` and `%S`: two digits. -/
def twoDigits (n : ℕ) : Bytes := [digitByte (n / 10), digitByte (n % 10)]

/-- `formatUtcTimestamp(t)`: `%Y%m%dT%H%M%SZ` of `gmtime`. -/
def formatUtcTimestamp (t : ℕ) : Bytes :=
  let utc := civilTime t
  decimal utc.year ++ (twoDigits utc.month ++ twoDigits utc.day ++ bytes "T" ++
    twoDigits utc.hour ++ twoDigits utc.minute ++ twoDigits utc.second ++ bytes "Z")

/-- `sessionFolderName(now, epoch)`. -/
def sessionFolderName (now epoch : ℕ) : Bytes :=
  formatUtcTimestamp now ++ (bytes "-e" ++ decimal epoch)

example : formatUtcTimestamp 1790346607 = bytes "20260925T143007Z" := by decide +kernel

theorem digitByte_inj {d d' : ℕ} (hd : d < 10) (hd' : d' < 10) (h : digitByte d = digitByte d') :
    d = d' := by
  have hnat := congrArg UInt8.toNat h
  rw [toNat_digitByte hd, toNat_digitByte hd'] at hnat
  omega

theorem decimal_inj {n n' : ℕ} (h : decimal n = decimal n') : n = n' := by
  rw [← decimalValue_decimal n, h, decimalValue_decimal]

theorem twoDigits_inj {n n' : ℕ} (hn : n < 100) (hn' : n' < 100) (h : twoDigits n = twoDigits n') :
    n = n' := by
  rw [twoDigits, twoDigits, List.cons.injEq, List.cons.injEq] at h
  have htens := digitByte_inj (by omega) (by omega) h.1
  have hones := digitByte_inj (by omega) (by omega) h.2.1
  omega

theorem formatUtcTimestamp_inj {t t' : ℕ} (h : formatUtcTimestamp t = formatUtcTimestamp t') :
    t = t' := by
  obtain ⟨hmonth, hday, hhour, hminute, hsecond⟩ := civilTime_bounds t
  obtain ⟨hmonth', hday', hhour', hminute', hsecond'⟩ := civilTime_bounds t'
  -- all but the year has the same length in both
  obtain ⟨hyear, hrest⟩ := List.append_inj' h rfl
  obtain ⟨hrest, -⟩ := List.append_inj hrest rfl
  obtain ⟨hrest, hs⟩ := List.append_inj hrest rfl
  obtain ⟨hrest, hm⟩ := List.append_inj hrest rfl
  obtain ⟨hrest, hh⟩ := List.append_inj hrest rfl
  obtain ⟨hrest, -⟩ := List.append_inj hrest rfl
  obtain ⟨hmo, hd⟩ := List.append_inj hrest rfl
  exact civilTime_inj (CivilTime.ext (decimal_inj hyear) (twoDigits_inj hmonth hmonth' hmo)
    (twoDigits_inj hday hday' hd) (twoDigits_inj hhour hhour' hh)
    (twoDigits_inj hminute hminute' hm) (twoDigits_inj hsecond hsecond' hs))

theorem dash_notMem_formatUtcTimestamp (t : ℕ) : (45 : UInt8) ∉ formatUtcTimestamp t := by
  intro hdash
  obtain ⟨hmonth, hday, hhour, hminute, hsecond⟩ := civilTime_bounds t
  have htwo : ∀ n < 100, (45 : UInt8) ∉ twoDigits n := by decide
  have hyear : (45 : UInt8) ∉ decimal (civilTime t).year :=
    fun h => absurd (isDigit_of_mem_decimal h) (by decide)
  have hT : (45 : UInt8) ∉ bytes "T" := by decide
  have hZ : (45 : UInt8) ∉ bytes "Z" := by decide
  simp only [formatUtcTimestamp, List.mem_append] at hdash
  rcases hdash with h | (((((h | h) | h) | h) | h) | h) | h
  · exact hyear h
  · exact htwo _ hmonth h
  · exact htwo _ hday h
  · exact hT h
  · exact htwo _ hhour h
  · exact htwo _ hminute h
  · exact htwo _ hsecond h
  · exact hZ h

theorem sessionFolderName_inj {now now' epoch epoch' : ℕ}
    (h : sessionFolderName now epoch = sessionFolderName now' epoch') :
    now = now' ∧ epoch = epoch' := by
  -- the stamp is what stands before the first dash
  have hstamp : ∀ t e, (sessionFolderName t e).takeWhile (· != 45) = formatUtcTimestamp t := by
    intro t e
    have hall : ∀ c ∈ formatUtcTimestamp t, (c != 45) = true := by
      intro c hc
      rw [bne_iff_ne]
      rintro rfl
      exact dash_notMem_formatUtcTimestamp t hc
    rw [sessionFolderName, List.takeWhile_append_of_pos hall]
    exact List.append_nil _
  obtain rfl : now = now' := formatUtcTimestamp_inj (by rw [← hstamp, h, hstamp])
  have hrest := List.append_cancel_left (List.append_cancel_left h)
  exact ⟨rfl, decimal_inj hrest⟩

/-- Segments of different channels have different names. -/
theorem segmentName_channelStem_inj {ch ch' : ℤ} {g i g' i' : ℕ}
    (h : segmentName (channelStem ch) g i = segmentName (channelStem ch') g' i') :
    ch = ch' ∧ (g, i) = (g', i') := by
  have hdot : ∀ rest : Bytes, ∀ c ∈ (bytes ".gen" ++ rest).head?, isDigit c = false := by
    rintro rest c ⟨⟩
    rfl
  simp only [segmentName, channelStem, List.append_assoc] at h
  have hread := congrArg readDecimalInt (List.append_cancel_left h)
  rw [readDecimalInt_decimalInt _ _ (hdot _), readDecimalInt_decimalInt _ _ (hdot _)] at hread
  obtain rfl : ch = ch' := congrArg Prod.fst (Option.some.inj hread)
  have hname : segmentName (channelStem ch) g i = segmentName (channelStem ch) g' i' := by
    simpa [segmentName, channelStem] using h
  exact ⟨rfl, segmentName_inj hname⟩

end RtaTool
