import RtaTool.Export.SplReportText
import RtaTool.Lib.HtmlTokens

/-!
# The tags of a report

No text of a payload reaches the tags of its report. Every renderer writes its texts between two
tags, with no `<` left in them, and its numbers there or between two quotes; so a report and the
report of the payload without its texts are alike piece by piece. One text decides more than what
stands in a cell: a dose result without a label has no row.

## Main definitions

* `Payload.blank` -- a payload without its texts
* `SameButTexts` -- payloads that differ in their texts only

## Main results

* `alike_renderReport` -- a report is alike to that of the payload without its texts
* `htmlTags_eq` -- two payloads that differ in their texts only, with labels in the same dose
  results, have the same tags
* `htmlTags_label` -- with a label in one of them only they need not
-/

namespace RtaTool

namespace SplReport

/-! ### Payloads without texts -/

/-- A metric without its id. -/
def MetricSpec.blank (m : MetricSpec) : MetricSpec := { m with id := [] }

/-- An alarm without its id. -/
def AlarmSpec.blank (a : AlarmSpec) : AlarmSpec := { a with metricId := [] }

/-- An alarm's result without its id. -/
def AlarmResult.blank (a : AlarmResult) : AlarmResult := { a with metricId := [] }

/-- A metric's result without its id. -/
def MetricResult.blank (m : MetricResult) : MetricResult := { m with id := [] }

/-- A dose result without its label. -/
def DoseResult.blank (d : DoseResult) : DoseResult := { d with label := [] }

/-- A payload without its texts: there are as many of them, all empty. -/
def Payload.blank (p : Payload) : Payload :=
  { p with
    venue := [], event := [], operatorName := [], company := [], engineer := []
    productionCompany := [], notes := [], appName := [], appVersion := [], buildId := []
    device := [], channel := []
    calibration := { p.calibration with clause := [] }
    config :=
      { p.config with
        metrics := p.config.metrics.map MetricSpec.blank
        alarms := p.config.alarms.map AlarmSpec.blank }
    alarms := p.alarms.map AlarmResult.blank
    metrics := p.metrics.map MetricResult.blank
    dose := p.dose.map DoseResult.blank
    validity := { p.validity with segmentPaths := p.validity.segmentPaths.map fun _ => [] }
    logSegments := [] }

/-- Two payloads that differ in the contents of their texts only. -/
def SameButTexts (p q : Payload) : Prop := p.blank = q.blank

/-- A dose result whose label tells only that there is one. -/
def DoseResult.plain (d : DoseResult) : DoseResult :=
  { d with label := if d.label = [] then [] else [42] }

/-- A payload without its texts, but with the dose results that have labels told apart. -/
def Payload.plain (p : Payload) : Payload := { p.blank with dose := p.dose.map DoseResult.plain }

theorem plain_eq {p q : Payload} (h : SameButTexts p q)
    (hlabel : ∀ i, (p.dose.get i).label = [] ↔ (q.dose.get i).label = []) : p.plain = q.plain := by
  have hdose : p.dose.map DoseResult.plain = q.dose.map DoseResult.plain := by
    refine Vector.ext fun i hi => ?_
    have hblank : p.dose[i].blank = q.dose[i].blank := by
      have := congrArg (fun r : Payload => r.dose[i]) h
      simpa only [Payload.blank, Vector.getElem_map] using this
    have hempty : (p.dose[i].label = []) = (q.dose[i].label = []) :=
      propext (hlabel ⟨i, hi⟩)
    rw [Vector.getElem_map, Vector.getElem_map]
    calc p.dose[i].plain
        = { p.dose[i].blank with label := if p.dose[i].label = [] then [] else [42] } := rfl
      _ = { q.dose[i].blank with label := if q.dose[i].label = [] then [] else [42] } := by
        rw [hblank]; simp only [hempty]
      _ = q.dose[i].plain := rfl
  rw [Payload.plain, Payload.plain, h, hdose]

/-! ### Texts without a `<` -/

theorem noLess_escapeHtml (text : Bytes) : 60 ∉ escapeHtml text := by
  rw [escapeHtml, List.mem_flatMap]
  rintro ⟨c, -, hc⟩
  split_ifs at hc with h1 h2 h3 h4
  · exact absurd hc (by decide)
  · exact absurd hc (by decide)
  · exact absurd hc (by decide)
  · exact absurd hc (by decide)
  · exact h2 (List.mem_singleton.mp hc).symm

theorem alike_escapeHtml (s t : Bytes) : HtmlAlike (escapeHtml s) (escapeHtml t) :=
  htmlAlike_of_noLess (noLess_escapeHtml s) (noLess_escapeHtml t)

theorem alike_decimal (n : ℕ) : HtmlAlike (decimal n) (decimal n) := by
  have hdigits : 60 ∉ decimal n := fun h => absurd (isDigit_of_mem_decimal h) (by decide)
  exact htmlAlike_of_noLess hdigits hdigits

set_option maxRecDepth 8000 in
theorem noLess_kReportStyle : 60 ∉ kReportStyle := by
  rw [kReportStyle, List.mem_flatMap]
  decide

theorem kHex_ne {nibble : UInt32} (h : nibble.toNat < 16) : kHex nibble ≠ 60 := by
  have hall : ∀ k : Fin 16, kHex (UInt32.ofNat k) ≠ 60 := by decide
  have := hall ⟨nibble.toNat, h⟩
  rwa [UInt32.ofNat_toNat] at this

theorem alike_sha256Hex (s t : Bytes) : HtmlAlike (sha256Hex s) (sha256Hex t) := by
  have hnone : ∀ data, 60 ∉ sha256Hex data := by
    intro data h
    obtain ⟨word, -, hword⟩ := List.mem_flatMap.mp h
    obtain ⟨shift, -, hshift⟩ := List.mem_map.mp hword
    refine kHex_ne ?_ hshift
    rw [UInt32.toNat_and]
    exact Nat.and_lt_two_pow _ (n := 4) (by decide)
  exact htmlAlike_of_noLess (hnone s) (hnone t)

/-! ### Pieces -/

theorem alike_kv (label : Bytes) {s t : Bytes} (h : HtmlAlike s t) :
    HtmlAlike (kv label s) (kv label t) := by
  have hopen : HtmlAlike (bytes "<div class=\"kv\"><span class=\"label\">")
      (bytes "<div class=\"kv\"><span class=\"label\">") := ⟨rfl, rfl⟩
  have hbetween : HtmlAlike (bytes "</span><span class=\"value\">")
      (bytes "</span><span class=\"value\">") := ⟨rfl, rfl⟩
  have hclose : HtmlAlike (bytes "</span></div>") (bytes "</span></div>") := ⟨rfl, rfl⟩
  exact (((hopen.append (alike_escapeHtml label label)).append hbetween).append h).append hclose

theorem alike_section (id title : Bytes) (hid : 34 ∉ id) {s t : Bytes} (h : HtmlAlike s t) :
    HtmlAlike («section» id title s) («section» id title t) := by
  let tag : HtmlTag :=
    { closing := false, name := bytes "section"
      attributes := [(bytes "class", bytes "section")], selfClosing := false }
  have hopen : HtmlPass .data (bytes "<section class=\"section\" id=\"")
      (bytes "<section class=\"section\" id=\"") (.value (some 34) tag (bytes "id") []) :=
    ⟨rfl, rfl⟩
  have hend : HtmlPass (.value (some 34) tag (bytes "id") ([] ++ id)) (bytes "\"><h2>")
      (bytes "\"><h2>") .data := ⟨rfl, rfl⟩
  have htitle : HtmlAlike (bytes "</h2>") (bytes "</h2>") := ⟨rfl, rfl⟩
  have hclose : HtmlAlike (bytes "</section>") (bytes "</section>") := ⟨rfl, rfl⟩
  exact (((((hopen.append (HtmlPass.value tag (bytes "id") [] hid)).append hend).append
    (alike_escapeHtml title title)).append htitle).append h).append hclose

theorem alike_absentSpan (reason : Bytes) :
    HtmlAlike (absentSpan reason) (absentSpan reason) := by
  have hopen : HtmlAlike (bytes "<span class=\"absent\">absent (")
      (bytes "<span class=\"absent\">absent (") := ⟨rfl, rfl⟩
  have hclose : HtmlAlike (bytes ")</span>") (bytes ")</span>") := ⟨rfl, rfl⟩
  exact (hopen.append (alike_escapeHtml reason reason)).append hclose

theorem alike_dbOrAbsent (value : Option Binary64Datum) :
    HtmlAlike (dbOrAbsent value) (dbOrAbsent value) := by
  cases value with
  | some value => exact alike_escapeHtml _ _
  | none => exact alike_absentSpan _

theorem alike_percentOrAbsent (value : Option Binary64Datum) :
    HtmlAlike (percentOrAbsent value) (percentOrAbsent value) := by
  cases value with
  | some value => exact alike_escapeHtml _ _
  | none => exact alike_absentSpan _

theorem alike_nextCell : HtmlAlike (bytes "</td><td>") (bytes "</td><td>") := ⟨rfl, rfl⟩

theorem alike_openRow : HtmlAlike (bytes "<tr><td>") (bytes "<tr><td>") := ⟨rfl, rfl⟩

theorem alike_closeRow : HtmlAlike (bytes "</td></tr>") (bytes "</td></tr>") := ⟨rfl, rfl⟩

theorem alike_closeTable : HtmlAlike (bytes "</table>") (bytes "</table>") := ⟨rfl, rfl⟩

theorem alike_weighting (w : WeightingType) : HtmlAlike w.toText w.toText := by
  cases w <;> exact ⟨rfl, rfl⟩

theorem alike_detector (d : TimeWeighting) : HtmlAlike d.toText d.toText := by
  cases d <;> exact ⟨rfl, rfl⟩

/-! ### The sections -/

theorem alike_renderIdentification (p : Payload) :
    HtmlAlike (renderIdentification p) (renderIdentification p.plain) := by
  have hrow : ∀ label s, HtmlAlike (kv label (escapeHtml s)) (kv label (escapeHtml [])) :=
    fun label s => alike_kv label (alike_escapeHtml s [])
  refine alike_section _ _ (by decide) ?_
  exact ((((((hrow _ p.venue).append (hrow _ p.event)).append (hrow _ p.operatorName)).append
    (hrow _ p.company)).append (hrow _ p.engineer)).append (hrow _ p.productionCompany)).append
    (hrow _ p.notes)

variable (math : DoubleMath)

set_option maxRecDepth 8000 in
theorem alike_renderInstrument (p : Payload) :
    HtmlAlike (renderInstrument math p) (renderInstrument math p.plain) := by
  have hrow : ∀ label s t, HtmlAlike (kv label (escapeHtml s)) (kv label (escapeHtml t)) :=
    fun label s t => alike_kv label (alike_escapeHtml s t)
  have hblank : HtmlAlike (bytes " ") (bytes " ") := ⟨rfl, rfl⟩
  have happ := alike_kv (bytes "Application") (((alike_escapeHtml p.appName []).append
    hblank).append (alike_escapeHtml p.appVersion []))
  refine alike_section _ _ (by decide) ?_
  refine HtmlAlike.append (HtmlAlike.append ?_ ⟨rfl, rfl⟩) ⟨rfl, rfl⟩
  exact (((happ.append (hrow _ p.buildId [])).append (hrow _ p.device [])).append
    (hrow _ p.channel [])).append (hrow _ _ _)

set_option maxRecDepth 8000 in
theorem alike_renderCalibration (p : Payload) :
    HtmlAlike (renderCalibration p) (renderCalibration p.plain) := by
  have hlevel : ∀ label x, HtmlAlike (kv label (escapeHtml (formatTrim x)))
      (kv label (escapeHtml (formatTrim x))) := fun label x => alike_kv label (alike_escapeHtml _ _)
  have htime : ∀ label n, HtmlAlike (kv label (decimal n)) (kv label (decimal n)) :=
    fun label n => alike_kv label (alike_decimal n)
  have hsupplied : HtmlAlike (bytes " (operator-supplied)") (bytes " (operator-supplied)") :=
    ⟨rfl, rfl⟩
  have hnominal : ∀ level : CalibrationLevel,
      HtmlAlike (escapeHtml (formatTrim level.nominalDb) ++
        if level.operatorSupplied then bytes " (operator-supplied)" else [])
      (escapeHtml (formatTrim level.nominalDb) ++
        if level.operatorSupplied then bytes " (operator-supplied)" else []) := fun level =>
    (alike_escapeHtml _ _).append (HtmlPass.ite .rfl (fun _ => hsupplied) fun _ => HtmlPass.nil)
  have hclause := alike_kv (bytes "Compared against") (alike_escapeHtml p.calibration.clause [])
  have hrefused : HtmlAlike (bytes "<p class=\"honesty\">Calibration refused: ")
      (bytes "<p class=\"honesty\">Calibration refused: ") := ⟨rfl, rfl⟩
  have hclose : HtmlAlike (bytes "</p>") (bytes "</p>") := ⟨rfl, rfl⟩
  refine alike_section _ _ (by decide) ?_
  refine HtmlPass.ite .rfl (fun _ => ⟨rfl, rfl⟩) fun _ => ?_
  refine HtmlAlike.append (HtmlAlike.append ?_ ?_) ?_
  · exact (((((hlevel _ _).append (htime _ _)).append (hlevel _ _)).append (htime _ _)).append
      (alike_kv _ (hnominal p.calibration.start.level))).append hclause
  · exact HtmlPass.ite .rfl (fun _ => ⟨rfl, rfl⟩) fun _ => HtmlPass.nil
  · refine HtmlPass.ite .rfl (fun _ => ?_) fun _ => (hlevel _ p.calibration.driftDb).append ?_
    · refine (hrefused.append ?_).append hclose
      exact HtmlPass.ite .rfl (fun _ => ⟨rfl, rfl⟩) fun _ => ⟨rfl, rfl⟩
    · simp only [show p.plain.calibration.verdict = p.calibration.verdict from rfl]
      cases p.calibration.verdict with
      | some verdict => exact alike_kv _ (by cases verdict <;> exact ⟨rfl, rfl⟩)
      | none => exact HtmlPass.nil

theorem alike_metricRow (cfg : Config) (m : MetricSpec) :
    HtmlAlike (metricRow math cfg m) (metricRow math cfg m.blank) := by
  exact (((((((alike_openRow.append (alike_escapeHtml m.id [])).append alike_nextCell).append
    (alike_weighting m.weighting)).append alike_nextCell).append
    (alike_detector m.detector)).append alike_nextCell).append (alike_escapeHtml _ _)).append
    alike_closeRow

theorem alike_alarmRow (cfg : Config) (a : AlarmSpec) :
    HtmlAlike (alarmRow math cfg a) (alarmRow math cfg a.blank) := by
  exact (((((alike_openRow.append (alike_escapeHtml a.metricId [])).append alike_nextCell).append
    (alike_escapeHtml _ _)).append alike_nextCell).append (alike_escapeHtml _ _)).append
    alike_closeRow

theorem alike_alarmStateRow (a : AlarmResult) :
    HtmlAlike (alarmStateRow a) (alarmStateRow a.blank) := by
  let tag : HtmlTag :=
    { closing := false, name := bytes "td", attributes := [], selfClosing := false }
  have hopen : HtmlPass .data (bytes "</td><td class=\"") (bytes "</td><td class=\"")
      (.value (some 34) tag (bytes "class") []) := ⟨rfl, rfl⟩
  have hclass : 34 ∉ stateClass a.state := by cases a.state <;> decide
  have hend : HtmlPass (.value (some 34) tag (bytes "class") ([] ++ stateClass a.state))
      (bytes "\">") (bytes "\">") .data := ⟨rfl, rfl⟩
  have hlabel : HtmlAlike (stateLabel a.state) (stateLabel a.state) := by
    cases a.state <;> exact ⟨rfl, rfl⟩
  have hfilling : HtmlAlike
      (if a.state = .filling then bytes " -- window not yet full, not compared" else [])
      (if a.state = .filling then bytes " -- window not yet full, not compared" else []) :=
    HtmlPass.ite .rfl (fun _ => ⟨rfl, rfl⟩) fun _ => HtmlPass.nil
  have hcell : HtmlAlike (bytes "<tr><td>" ++ escapeHtml a.metricId) (bytes "<tr><td>" ++
      escapeHtml []) := alike_openRow.append (alike_escapeHtml a.metricId [])
  have hstate := ((HtmlPass.append hcell hopen).append
    (HtmlPass.value tag (bytes "class") [] hclass)).append hend
  exact ((((hstate.append hlabel).append hfilling).append alike_nextCell).append
    (alike_dbOrAbsent a.headroomDb)).append alike_closeRow

theorem alike_dosePresetRow (number : ℕ) (d : DoseSettings) :
    HtmlAlike (dosePresetRow math number d) (dosePresetRow math number d) := by
  exact (((((((((alike_openRow.append (alike_decimal number)).append alike_nextCell).append
    (alike_escapeHtml _ _)).append alike_nextCell).append (alike_escapeHtml _ _)).append
    alike_nextCell).append (alike_escapeHtml _ _)).append alike_nextCell).append
    (alike_escapeHtml _ _)).append alike_closeRow

set_option maxRecDepth 8000 in
theorem alike_renderSettings (p : Payload) :
    HtmlAlike (renderSettings math p) (renderSettings math p.plain) := by
  have hrow : ∀ label s, HtmlAlike (kv label (escapeHtml s)) (kv label (escapeHtml s)) :=
    fun label s => alike_kv label (alike_escapeHtml s s)
  have hcalibrated : HtmlAlike (if p.config.calibrated then bytes "yes" else bytes "no")
      (if p.config.calibrated then bytes "yes" else bytes "no") :=
    HtmlPass.ite .rfl (fun _ => ⟨rfl, rfl⟩) fun _ => ⟨rfl, rfl⟩
  refine alike_section _ _ (by decide) ?_
  refine HtmlAlike.append (HtmlAlike.append (HtmlAlike.append (HtmlAlike.append ?_ ?_) ?_) ?_) ?_
  · exact ((((hrow _ _).append (hrow _ _)).append (alike_kv _ hcalibrated)).append
      (hrow _ _)).append (alike_kv _ (alike_decimal _))
  · refine (HtmlAlike.append ⟨rfl, rfl⟩ ?_).append alike_closeTable
    exact HtmlPass.flatMap_map fun m _ => alike_metricRow math _ m
  · refine (HtmlAlike.append ⟨rfl, rfl⟩ ?_).append alike_closeTable
    exact HtmlPass.flatMap_map fun a _ => alike_alarmRow math _ a
  · refine HtmlPass.ite List.map_eq_nil_iff.symm.not (fun _ => ?_) fun _ => HtmlPass.nil
    refine (HtmlAlike.append ⟨rfl, rfl⟩ ?_).append alike_closeTable
    exact HtmlPass.flatMap_map fun a _ => alike_alarmStateRow a
  · refine (HtmlAlike.append ⟨rfl, rfl⟩ ?_).append alike_closeTable
    exact HtmlPass.flatMap fun i _ => alike_dosePresetRow math _ _

theorem alike_resultRow {s t : Bytes} (h : HtmlAlike s t) (value : Option Binary64Datum) :
    HtmlAlike (resultRow s value) (resultRow t value) :=
  (((alike_openRow.append h).append alike_nextCell).append (alike_dbOrAbsent value)).append
    alike_closeRow

theorem alike_metricResult (m : MetricResult) :
    HtmlAlike (metricResult math m) (metricResult math m.blank) := by
  have hleq : ∀ s, HtmlAlike (bytes "Leq (" ++ escapeHtml s ++ bytes ")")
      (bytes "Leq (" ++ escapeHtml s ++ bytes ")") := fun s =>
    (HtmlAlike.append ⟨rfl, rfl⟩ (alike_escapeHtml s s)).append ⟨rfl, rfl⟩
  have hhead : HtmlAlike (bytes "<h3>" ++ escapeHtml m.id ++ bytes " (" ++ m.weighting.toText ++
      m.detector.toText ++ bytes ")</h3><table>") (bytes "<h3>" ++ escapeHtml [] ++ bytes " (" ++
      m.weighting.toText ++ m.detector.toText ++ bytes ")</h3><table>") := by
    refine HtmlAlike.append (HtmlAlike.append (HtmlAlike.append (HtmlAlike.append
      (HtmlAlike.append ?_ ?_) ?_) ?_) ?_) ?_
    · exact ⟨rfl, rfl⟩
    · exact alike_escapeHtml m.id []
    · exact ⟨rfl, rfl⟩
    · exact alike_weighting m.weighting
    · exact alike_detector m.detector
    · exact ⟨rfl, rfl⟩
  refine HtmlAlike.append (HtmlAlike.append ?_ ?_) alike_closeTable
  · refine ((((hhead.append (alike_resultRow (hleq _) _)).append ?_).append ?_).append ?_).append ?_
    · exact alike_resultRow ⟨rfl, rfl⟩ m.lmaxDb
    · exact alike_resultRow ⟨rfl, rfl⟩ m.lminDb
    · exact alike_resultRow ⟨rfl, rfl⟩ m.lpeakDb
    · exact alike_resultRow ⟨rfl, rfl⟩ m.selDb
  · exact HtmlPass.flatMap fun i _ => alike_resultRow (alike_escapeHtml _ _) _

theorem alike_renderMetrics (p : Payload) :
    HtmlAlike (renderMetrics math p) (renderMetrics math p.plain) :=
  alike_section _ _ (by decide)
    (HtmlPass.flatMap_map fun m _ => alike_metricResult math m)

/-- The label decides whether there is a row, and is then the text of its first cell. -/
theorem alike_doseRow (d : DoseResult) : HtmlAlike (doseRow math d) (doseRow math d.plain) := by
  by_cases h : d.label = []
  · have hplain : d.plain.label = [] := if_pos h
    rw [doseRow, doseRow, if_pos h, if_pos hplain]
    exact HtmlPass.nil
  · have hplain : d.plain.label ≠ [] := by
      rw [DoseResult.plain]
      simp only [if_neg h]
      decide
    rw [doseRow, doseRow, if_neg h, if_neg hplain]
    have hcells := ((((alike_openRow.append (alike_escapeHtml d.label d.plain.label)).append
      alike_nextCell).append (alike_percentOrAbsent d.percent)).append alike_nextCell).append
      (alike_percentOrAbsent d.projectedPercent)
    exact ((((((((hcells.append alike_nextCell).append (alike_escapeHtml _ _)).append
      alike_nextCell).append (alike_escapeHtml _ _)).append alike_nextCell).append
      (alike_dbOrAbsent d.twaDb)).append alike_nextCell).append
      (alike_dbOrAbsent d.exposureLevel8hDb)).append alike_closeRow

set_option maxRecDepth 8000 in
theorem alike_renderDose (p : Payload) :
    HtmlAlike (renderDose math p) (renderDose math p.plain) := by
  refine alike_section _ _ (by decide) ?_
  refine (HtmlAlike.append ⟨rfl, rfl⟩ ?_).append alike_closeTable
  rw [show p.plain.dose.toList = p.dose.toList.map DoseResult.plain from Vector.toList_map]
  exact HtmlPass.flatMap_map fun d _ => alike_doseRow math d

/-! ### The drawing -/

/-- A tag of the drawing, with its first attribute. -/
def drawingTag (name cls : Bytes) : HtmlTag :=
  { closing := false, name := name, attributes := [(bytes "class", cls)], selfClosing := false }

theorem noQuote_toStringDouble (x : Binary64Datum) : 34 ∉ toStringDouble x := by
  intro h
  rcases mem_printFixed h with hdigit | hother
  · exact absurd hdigit (by decide)
  · exact absurd hother (by decide)

theorem alike_excludedRegion (p : Payload) :
    HtmlAlike (excludedRegion math p) (excludedRegion math p) := by
  rw [excludedRegion]
  cases p.validity.excludedBlockRange with
  | none => exact HtmlPass.nil
  | some range =>
    let tag := drawingTag (bytes "rect") (bytes "excluded-region")
    have hopen : HtmlPass .data (bytes "<rect class=\"excluded-region\" x=\"")
        (bytes "<rect class=\"excluded-region\" x=\"") (.value (some 34) tag (bytes "x") []) :=
      ⟨rfl, rfl⟩
    have hbetween : ∀ x, HtmlPass (.value (some 34) tag (bytes "x") ([] ++ x))
        (bytes "\" y=\"0\" width=\"") (bytes "\" y=\"0\" width=\"")
        (.value (some 34) ((tag.add (bytes "x") x).add (bytes "y") (bytes "0"))
          (bytes "width") []) := fun x => ⟨rfl, rfl⟩
    have hclose : ∀ x width, HtmlPass (.value (some 34) ((tag.add (bytes "x") x).add (bytes "y")
        (bytes "0")) (bytes "width") ([] ++ width)) (bytes "\" height=\"120\" />")
        (bytes "\" height=\"120\" />") .data := fun x width => ⟨rfl, rfl⟩
    exact (((hopen.append (HtmlPass.value _ _ _ (noQuote_toStringDouble _))).append
      (hbetween _)).append (HtmlPass.value _ _ _ (noQuote_toStringDouble _))).append (hclose _ _)

theorem alike_historyTrace (p : Payload) (points : List HistoryPoint) :
    HtmlAlike (historyTrace math p points) (historyTrace math p points) := by
  let tag := drawingTag (bytes "polyline") (bytes "trace")
  have hopen : HtmlPass .data (bytes "<polyline class=\"trace\" points=\"")
      (bytes "<polyline class=\"trace\" points=\"")
      (.value (some 34) tag (bytes "points") []) := ⟨rfl, rfl⟩
  have hpoints : 34 ∉ points.flatMap (historyPoint math p) := by
    simp only [List.mem_flatMap, historyPoint, List.mem_append, not_exists, not_and, not_or]
    intro pt _
    exact ⟨⟨⟨noQuote_toStringDouble _, by decide⟩, noQuote_toStringDouble _⟩,
      by decide⟩
  have hclose : ∀ value, HtmlPass (.value (some 34) tag (bytes "points") ([] ++ value))
      (bytes "\" />") (bytes "\" />") .data := fun value => ⟨rfl, rfl⟩
  exact HtmlPass.ite .rfl (fun _ => HtmlPass.nil) fun _ =>
    (hopen.append (HtmlPass.value _ _ _ hpoints)).append (hclose _)

theorem alike_markerLine (p : Payload) (marker : Marker) :
    HtmlAlike (markerLine math p marker) (markerLine math p marker) := by
  let lineTag : HtmlTag :=
    { closing := false, name := bytes "line", attributes := [], selfClosing := false }
  have hopen : HtmlPass .data (bytes "<line class=\"") (bytes "<line class=\"")
      (.value (some 34) lineTag (bytes "class") []) := ⟨rfl, rfl⟩
  have hclass : 34 ∉ markerClass marker.kind := by cases marker.kind <;> decide
  have hfirst : ∀ cls, HtmlPass (.value (some 34) lineTag (bytes "class") ([] ++ cls))
      (bytes "\" x1=\"") (bytes "\" x1=\"")
      (.value (some 34) (drawingTag (bytes "line") cls) (bytes "x1") []) := fun cls => ⟨rfl, rfl⟩
  have hsecond : ∀ cls x, HtmlPass
      (.value (some 34) (drawingTag (bytes "line") cls) (bytes "x1") ([] ++ x))
      (bytes "\" x2=\"") (bytes "\" x2=\"")
      (.value (some 34) ((drawingTag (bytes "line") cls).add (bytes "x1") x) (bytes "x2") []) :=
    fun cls x => ⟨rfl, rfl⟩
  have hclose : ∀ cls x y, HtmlPass
      (.value (some 34) ((drawingTag (bytes "line") cls).add (bytes "x1") x) (bytes "x2")
        ([] ++ y)) (bytes "\" y1=\"0\" y2=\"120\" />") (bytes "\" y1=\"0\" y2=\"120\" />")
      .data := fun cls x y => ⟨rfl, rfl⟩
  refine HtmlPass.ite .rfl (fun _ => HtmlPass.nil) fun _ => ?_
  exact (((((hopen.append (HtmlPass.value _ _ _ hclass)).append (hfirst _)).append
    (HtmlPass.value _ _ _ (noQuote_toStringDouble _))).append (hsecond _ _)).append
    (HtmlPass.value _ _ _ (noQuote_toStringDouble _))).append (hclose _ _ _)

set_option maxRecDepth 8000 in
theorem alike_renderHistory (p : Payload) :
    HtmlAlike (renderHistory math p) (renderHistory math p.plain) := by
  change HtmlAlike (renderHistory math p) (renderHistory math p)
  refine alike_section _ _ (by decide) ?_
  refine HtmlAlike.append (HtmlAlike.append (HtmlAlike.append (HtmlAlike.append
    ⟨rfl, rfl⟩ (alike_excludedRegion math p)) ?_) ?_) ⟨rfl, rfl⟩
  · exact HtmlPass.flatMap fun series _ => alike_historyTrace math p series
  · exact HtmlPass.flatMap fun marker _ => alike_markerLine math p marker

/-! ### The document -/

set_option maxRecDepth 8000 in
theorem alike_renderValidity (p : Payload) :
    HtmlAlike (renderValidity p) (renderValidity p.plain) := by
  have hrow : ∀ label n, HtmlAlike (kv label (decimal n)) (kv label (decimal n)) :=
    fun label n => alike_kv label (alike_decimal n)
  have hsegment : ∀ seg, HtmlAlike (segmentRow seg) (segmentRow []) := fun seg =>
    (alike_openRow.append (alike_escapeHtml seg [])).append alike_closeRow
  refine alike_section _ _ (by decide) ?_
  refine HtmlAlike.append (HtmlAlike.append (HtmlAlike.append (HtmlAlike.append
    (HtmlAlike.append ?_ ?_) (alike_kv _ ?_)) ?_) ?_) ?_
  · exact (((((((((hrow _ _).append (hrow _ _)).append (hrow _ _)).append (hrow _ _)).append
      (hrow _ _)).append (hrow _ _)).append (hrow _ _)).append (hrow _ _)).append (hrow _ _))
  · exact alike_kv _ (HtmlPass.ite .rfl (fun _ => ⟨rfl, rfl⟩) fun _ => ⟨rfl, rfl⟩)
  · simp only [show p.plain.validity.excludedBlockRange = p.validity.excludedBlockRange from rfl]
    cases p.validity.excludedBlockRange with
    | some range => exact (HtmlAlike.append (alike_decimal _) ⟨rfl, rfl⟩).append (alike_decimal _)
    | none => exact ⟨rfl, rfl⟩
  · refine (HtmlAlike.append ⟨rfl, rfl⟩ ?_).append alike_closeTable
    exact HtmlPass.flatMap_map fun seg _ => hsegment seg
  · exact ⟨rfl, rfl⟩
  · exact ⟨rfl, rfl⟩

set_option maxRecDepth 8000 in
theorem alike_renderIntegrity (p : Payload) :
    HtmlAlike (renderIntegrity p) (renderIntegrity p.plain) := by
  refine alike_section _ _ (by decide) ?_
  refine HtmlAlike.append (alike_kv _ (HtmlAlike.append (HtmlAlike.append ?_ ?_) ?_)) ?_
  · exact ⟨rfl, rfl⟩
  · exact alike_sha256Hex _ _
  · exact ⟨rfl, rfl⟩
  · exact ⟨rfl, rfl⟩

theorem alike_reportSections (p : Payload) :
    HtmlAlike (reportSections math p) (reportSections math p.plain) :=
  ((((((((alike_renderIdentification p).append (alike_renderInstrument math p)).append
    (alike_renderCalibration p)).append (alike_renderSettings math p)).append
    (alike_renderMetrics math p)).append (alike_renderDose math p)).append
    (alike_renderHistory math p)).append (alike_renderValidity p)).append (alike_renderIntegrity p)

/-- `documentShell`, what stands before the sections. -/
def shellHead (title bodyExtra : Bytes) : Bytes :=
  bytes "<!DOCTYPE html><html lang=\"en\"><head><meta charset=\"utf-8\">" ++
    bytes "<title>" ++ escapeHtml title ++ bytes "</title>" ++
    bytes "<style>" ++ kReportStyle ++ bytes "</style>" ++
    bytes "</head><body>" ++
    bytes "<h1>SPL measurement report</h1><p class=\"subtitle\">rtatool</p>" ++ bodyExtra

/-- `documentShell`, what stands after them. -/
def shellTail : Bytes :=
  bytes "<script>" ++ kReportScript ++ bytes "</script>" ++ bytes "</body></html>"

theorem documentShell_eq (title bodyExtra sections : Bytes) :
    documentShell title bodyExtra sections =
      shellHead title bodyExtra ++ sections ++ shellTail := by
  simp only [documentShell, shellHead, shellTail, List.append_assoc]

/-- The title is read as the text of its element, and so is the style. -/
theorem alike_shellHead (title title' : Bytes) {bodyExtra : Bytes}
    (hextra : HtmlAlike bodyExtra bodyExtra) :
    HtmlAlike (shellHead title bodyExtra) (shellHead title' bodyExtra) := by
  have htitle : HtmlPass .data (bytes "<title>") (bytes "<title>") (.raw (bytes "title")) :=
    ⟨rfl, rfl⟩
  have htitleEnd : HtmlPass (.raw (bytes "title")) (bytes "</title>") (bytes "</title>") .data :=
    ⟨rfl, rfl⟩
  have hstyle : HtmlPass .data (bytes "<style>") (bytes "<style>") (.raw (bytes "style")) :=
    ⟨rfl, rfl⟩
  have hstyleEnd : HtmlPass (.raw (bytes "style")) (bytes "</style>") (bytes "</style>") .data :=
    ⟨rfl, rfl⟩
  have hopen : HtmlAlike (bytes "<!DOCTYPE html><html lang=\"en\"><head><meta charset=\"utf-8\">")
      (bytes "<!DOCTYPE html><html lang=\"en\"><head><meta charset=\"utf-8\">") := ⟨rfl, rfl⟩
  have hbody : HtmlAlike (bytes "</head><body>") (bytes "</head><body>") := ⟨rfl, rfl⟩
  have hheading : HtmlAlike
      (bytes "<h1>SPL measurement report</h1><p class=\"subtitle\">rtatool</p>")
      (bytes "<h1>SPL measurement report</h1><p class=\"subtitle\">rtatool</p>") := ⟨rfl, rfl⟩
  have htitled := ((HtmlPass.append hopen htitle).append (HtmlPass.raw (bytes "title")
    (noLess_escapeHtml title) (noLess_escapeHtml title'))).append htitleEnd
  have hstyled := ((htitled.append hstyle).append (HtmlPass.raw (bytes "style")
    noLess_kReportStyle noLess_kReportStyle)).append hstyleEnd
  exact ((hstyled.append hbody).append hheading).append hextra

set_option maxRecDepth 8000 in
theorem alike_shellTail : HtmlAlike shellTail shellTail := by
  have hscript : HtmlPass .data (bytes "<script>") (bytes "<script>") (.raw (bytes "script")) :=
    ⟨rfl, rfl⟩
  have htext : HtmlPass (.raw (bytes "script")) kReportScript kReportScript
      (.raw (bytes "script")) := ⟨rfl, rfl⟩
  have hend : HtmlPass (.raw (bytes "script")) (bytes "</script>") (bytes "</script>") .data :=
    ⟨rfl, rfl⟩
  have hclose : HtmlAlike (bytes "</body></html>") (bytes "</body></html>") := ⟨rfl, rfl⟩
  exact ((hscript.append htext).append hend).append hclose

/-- The embedded value is a script that is the same in every report. -/
theorem alike_payloadScript :
    HtmlAlike (bytes "<script>window.__SPL_PAYLOAD__ = \x7b\"frozen\":true\x7d;</script>")
      (bytes "<script>window.__SPL_PAYLOAD__ = \x7b\"frozen\":true\x7d;</script>") := ⟨rfl, rfl⟩

theorem alike_renderReport (p : Payload) :
    HtmlAlike (renderReport math p) (renderReport math p.plain) := by
  rw [renderReport, renderReport, documentShell_eq, documentShell_eq]
  exact ((alike_shellHead _ _ alike_payloadScript).append (alike_reportSections math p)).append
    alike_shellTail

/-- The operations on finite doubles, each rounded once. -/
def exactMath : DoubleMath :=
  let value : Binary64Datum → ℚ := fun
    | .finite x => x.value
    | _ => 0
  let rounded : ℚ → Binary64Datum := fun q =>
    (Binary64.nearest (q < 0) |q|).elim (.infinite (q < 0)) .finite
  { add := fun x y => rounded (value x + value y)
    sub := fun x y => rounded (value x - value y)
    mul := fun x y => rounded (value x * value y)
    div := fun x y => rounded (value x / value y)
    lt := fun x y => value x < value y
    eq := fun x y => value x = value y
    ofInt := fun n => rounded n
    toInt := fun x => if 0 ≤ value x then ⌊value x⌋ else ⌈value x⌉
    llround := fun x => if 0 ≤ value x then ⌊value x + 1 / 2⌋ else ⌈value x - 1 / 2⌉
    stream := printFixed 6 }

/-- A payload of which nothing is filled in. -/
def emptyPayload : Payload :=
  let zero := exactMath.ofInt 0
  let check : CalibrationCheck :=
    { level := { nominalDb := zero, operatorSupplied := false }
      measuredLevelDb := zero, unixMs := 0 }
  let settings : DoseSettings :=
    { criterionLevelDb := zero, criterionSeconds := zero, q := zero, thresholdDb := zero }
  let dose : DoseResult :=
    { label := [], settings := settings, percent := none, projectedPercent := none
      elapsedSeconds := zero, twaDb := none, exposureLevel8hDb := none }
  { venue := [], event := [], operatorName := [], company := [], engineer := []
    productionCompany := [], notes := [], appName := [], appVersion := [], buildId := []
    device := [], channel := [], sampleRate := zero
    calibration :=
      { performed := false, start := check, finish := check, driftDb := zero, verdict := none
        clause := [] }
    calibrationChannelRefusal := .none, calibrationOffsetApplied := true
    config :=
      { blockSeconds := zero, referenceOffsetDb := zero, calibrated := false
        logSpanSeconds := zero, segmentBlocks := 0, metrics := [], alarms := []
        dose := .replicate 2 settings }
    alarms := [], metrics := [], dose := .replicate 2 dose, history := [], markers := []
    validity :=
      { totalBlocks := 0, excludedBlocks := 0, overloadBlocks := 0, underRangeBlocks := 0
        droppedBlocks := 0, gapBlocks := 0, droppedSamplesTotal := 0, refusedMetrics := 0
        segmentPaths := [], bytesDiscarded := 0, lnDoseAlarmFromLiveSession := false
        excludedBlockRange := none }
    logSegments := [] }

/-- **Headline.** Two payloads that differ in the contents of their texts only, with labels in the
same dose results, have reports with the same tags and attributes. -/
theorem htmlTags_eq {p q : Payload} (h : SameButTexts p q)
    (hlabel : ∀ i, (p.dose.get i).label = [] ↔ (q.dose.get i).label = []) :
    htmlTags (renderReport math p) = htmlTags (renderReport math q) := by
  have hp := (alike_renderReport math p).tags_eq
  have hq := (alike_renderReport math q).tags_eq
  rw [hp, hq, plain_eq h hlabel]

/-- A venue, an event and notes that are written as markup. -/
theorem htmlTags_eq_markup :
    htmlTags (renderReport exactMath emptyPayload) =
      htmlTags (renderReport exactMath { emptyPayload with
        venue := bytes "</span><script>", event := bytes "</title>", notes := bytes "\" x=\"" }) :=
  htmlTags_eq exactMath rfl fun _ => Iff.rfl

/-! ### A label and no label -/

theorem htmlTags_renderDose (p : Payload) :
    ∃ before after : List HtmlTag, ∀ dose, htmlTags (renderReport math { p with dose := dose }) =
      before ++ htmlTags (renderDose math { p with dose := dose }) ++ after := by
  have self : ∀ {s t : Bytes}, HtmlAlike s t → HtmlAlike s s := fun h => h.trans h.symm
  let first := shellHead (if p.event = [] then bytes "SPL report" else p.event)
    (bytes "<script>window.__SPL_PAYLOAD__ = \x7b\"frozen\":true\x7d;</script>") ++
    (renderIdentification p ++ renderInstrument math p ++ renderCalibration p ++
      renderSettings math p ++ renderMetrics math p)
  let last := renderHistory math p ++ renderValidity p ++ renderIntegrity p ++ shellTail
  have hfirst : HtmlAlike first first :=
    (alike_shellHead _ _ alike_payloadScript).append (((((self
      (alike_renderIdentification p)).append (self (alike_renderInstrument math p))).append
      (self (alike_renderCalibration p))).append (self (alike_renderSettings math p))).append
      (self (alike_renderMetrics math p)))
  refine ⟨htmlTags first, htmlTags last, fun dose => ?_⟩
  have hsplit : renderReport math { p with dose := dose } =
      first ++ renderDose math { p with dose := dose } ++ last := by
    rw [renderReport, documentShell_eq]
    simp only [reportSections, first, last, List.append_assoc]
    rfl
  rw [hsplit, (hfirst.append (self (alike_renderDose math _))).tags_append, hfirst.tags_append]

/-- The empty payload, its first dose result labelled. -/
def labelledPayload : Payload :=
  { emptyPayload with
    dose := emptyPayload.dose.set 0 { emptyPayload.dose[0] with label := bytes "OSHA" } }

theorem sameButTexts_labelled : SameButTexts emptyPayload labelledPayload := by
  have hdose : labelledPayload.dose.map DoseResult.blank =
      emptyPayload.dose.map DoseResult.blank := by
    rw [labelledPayload, Vector.map_set]
    refine Vector.ext fun i hi => ?_
    rw [Vector.getElem_set, Vector.getElem_map]
    split_ifs with h
    · subst h
      rfl
    · rfl
  rw [SameButTexts, Payload.blank, Payload.blank, hdose]
  rfl

/-- A dose result with a label has a row of its own. -/
theorem htmlTags_label :
    ¬ ∀ (math : DoubleMath) (p q : Payload), SameButTexts p q →
      htmlTags (renderReport math p) = htmlTags (renderReport math q) := by
  intro hall
  have htags := hall exactMath _ _ sameButTexts_labelled
  obtain ⟨before, after, hdose⟩ := htmlTags_renderDose exactMath emptyPayload
  have hempty := hdose emptyPayload.dose
  have hlabelled := hdose labelledPayload.dose
  have hrows : htmlTags (renderDose exactMath emptyPayload) =
      htmlTags (renderDose exactMath labelledPayload) :=
    List.append_cancel_left (List.append_cancel_right (hempty.symm.trans (htags.trans hlabelled)))
  have hlength : (htmlTags (renderDose exactMath emptyPayload)).length ≠
      (htmlTags (renderDose exactMath labelledPayload)).length := by decide +kernel
  exact hlength (congrArg List.length hrows)

end SplReport

end RtaTool
