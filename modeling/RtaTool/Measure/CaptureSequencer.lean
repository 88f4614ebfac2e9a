import RtaTool.Lib.RunLength
import RtaTool.Measure.SplMeter

/-!
# The capture sequencer

`CaptureSequencer` walks through a list of members. A member is armed, waited for and captured, and
it is stored unless the window had an overload or its gate did not clear. The overload is found by
one count for each channel, carried over the boundaries of the hops, and by a latch.

## Main definitions

* `CaptureSequencer`, `CaptureSequencer.call` -- the members of the class, and one call
* `CaptureSequencer.observed` -- the calls of a run, each with the state and the step it found
* `Stored` -- what the calls that were made have to say about a member for it to be stored

## Main results

* `SequencerInv.call` -- **Headline.** The step lemma
* `captureSequencer_runs` -- **Headline.** What is stored and announced in any sequence of calls
-/

namespace RtaTool

namespace Sequencer

/-- A `float` sample: a number, one of the infinities, or NaN. -/
inductive Sample
  | finite (x : ℚ)
  | infinite
  | nan
  deriving DecidableEq

/-- `std::abs(x) >= rta::dsp::kFullScaleThreshold`. -/
def Sample.fullScale : Sample → Bool
  | .finite x => SplMeter.kFullScaleThreshold ≤ |x|
  | .infinite => true
  | .nan => false

/-- `CaptureState`. -/
inductive CaptureState
  | idle
  | armed
  | waiting
  | capturing
  deriving DecidableEq

/-- `RefusalReason`. -/
inductive RefusalReason
  | none
  | overload
  | gateNotCleared
  deriving DecidableEq

/-- `CaptureRecord`. -/
structure CaptureRecord where
  name : String
  refusal : RefusalReason
  deriving DecidableEq

/-- `CaptureSequencer`, and the indices that `onStep` has been called with. -/
structure CaptureSequencer where
  members : List String
  captures : List CaptureRecord
  step : ℕ
  state : CaptureState
  lastRefusal : RefusalReason
  referenceRun : ℕ
  measurementRun : ℕ
  overloadLatched : Bool
  steps : List ℕ

/-- The public calls. -/
inductive Call
  | arm
  | beginWait
  | beginCapture
  | feedHop (referenceHop measurementHop : List Sample)
  | endCapture (gateCleared : Bool)
  deriving DecidableEq

/-- `feedRun`: whether the run reached three, and its length at the end. -/
def feedRun (hop : List Sample) (run : ℕ) : Bool × ℕ :=
  hop.foldl
    (fun s x =>
      if x.fullScale then (s.1 || decide (3 ≤ s.2 + 1), s.2 + 1)
      else (s.1, 0))
    (false, run)

namespace CaptureSequencer

/-- `CaptureSequencer::CaptureSequencer`. -/
def make (members : List String) : CaptureSequencer where
  members := members
  captures := []
  step := 0
  state := .idle
  lastRefusal := .none
  referenceRun := 0
  measurementRun := 0
  overloadLatched := false
  steps := []

/-- `arm`. -/
def arm (s : CaptureSequencer) : CaptureSequencer :=
  if s.state ≠ .idle then s
  else if s.step ≥ s.members.length then s
  else { s with state := .armed, referenceRun := 0, measurementRun := 0, overloadLatched := false }

/-- `beginWait`. -/
def beginWait (s : CaptureSequencer) : CaptureSequencer :=
  if s.state ≠ .armed then s else { s with state := .waiting }

/-- `beginCapture`. -/
def beginCapture (s : CaptureSequencer) : CaptureSequencer :=
  if s.state ≠ .waiting then s else { s with state := .capturing }

/-- `feedHop`. -/
def feedHop (s : CaptureSequencer) (referenceHop measurementHop : List Sample) :
    CaptureSequencer :=
  if s.state ≠ .capturing then s
  else
    let reference := feedRun referenceHop s.referenceRun
    let measurement := feedRun measurementHop s.measurementRun
    { s with
      referenceRun := reference.2
      measurementRun := measurement.2
      overloadLatched := s.overloadLatched || reference.1 || measurement.1 }

/-- What `endCapture` refuses the step for. -/
def refusal (s : CaptureSequencer) (gateCleared : Bool) : RefusalReason :=
  if s.overloadLatched then .overload
  else if !gateCleared then .gateNotCleared
  else .none

/-- `endCapture`, `none` where a member is read that there is not. -/
def endCapture (s : CaptureSequencer) (gateCleared : Bool) : Option CaptureSequencer :=
  if s.state ≠ .capturing then some s
  else
    let refusal := s.refusal gateCleared
    let captures :=
      if refusal = .none then
        s.members[s.step]?.map fun name => s.captures ++ [⟨name, refusal⟩]
      else some s.captures
    captures.map fun captures =>
      { s with
        lastRefusal := refusal
        captures
        steps := s.steps ++ [s.step]
        step := s.step + 1
        state := if s.step + 1 ≥ s.members.length then .idle else .armed
        referenceRun := 0
        measurementRun := 0
        overloadLatched := false }

/-- One call. -/
def call (s : CaptureSequencer) : Call → Option CaptureSequencer
  | .arm => some s.arm
  | .beginWait => some s.beginWait
  | .beginCapture => some s.beginCapture
  | .feedHop referenceHop measurementHop => some (s.feedHop referenceHop measurementHop)
  | .endCapture gateCleared => s.endCapture gateCleared

/-- A sequence of calls. -/
def run (s : CaptureSequencer) (calls : List Call) : Option CaptureSequencer :=
  calls.foldlM call s

end CaptureSequencer

/-! ### What was asked of the sequencer -/

/-- A call, with `state()` and `currentStep()` before it. -/
structure Observed where
  state : CaptureState
  step : ℕ
  call : Call

/-- The calls of a run, with what they found. -/
def CaptureSequencer.observed (s : CaptureSequencer) : List Call → List Observed
  | [] => []
  | c :: calls => ⟨s.state, s.step, c⟩ ::
    match s.call c with
    | none => []
    | some t => t.observed calls

/-- What of a call while member `i` was `Capturing` is wanted. -/
def Observed.ofMember {β : Type*} (i : ℕ) (f : Call → List β) (o : Observed) : List β :=
  if o.state = .capturing ∧ o.step = i then f o.call else []

/-- The samples of a hop on the reference channel. -/
def Call.reference : Call → List Sample
  | .feedHop referenceHop _ => referenceHop
  | _ => []

/-- The samples of a hop on the measurement channel. -/
def Call.measurement : Call → List Sample
  | .feedHop _ measurementHop => measurementHop
  | _ => []

/-- What `endCapture` was told. -/
def Call.gate : Call → List Bool
  | .endCapture gateCleared => [gateCleared]
  | _ => []

/-- What of the calls while member `i` was `Capturing` is wanted, one after the other. -/
def during {β : Type*} (i : ℕ) (f : Call → List β) (log : List Observed) : List β :=
  log.flatMap (Observed.ofMember i f)

/-- The two channels had no three full-scale samples in a row while member `i` was `Capturing`, and
its gate cleared. -/
def Stored (log : List Observed) (i : ℕ) : Prop :=
  during i Call.gate log = [true] ∧
    ¬ HasRun 3 Sample.fullScale (during i Call.reference log) ∧
    ¬ HasRun 3 Sample.fullScale (during i Call.measurement log)

instance (log : List Observed) (i : ℕ) : Decidable (Stored log i) :=
  inferInstanceAs (Decidable (_ ∧ _ ∧ _))

/-! ### The count of full-scale samples -/

theorem feedRun_concat (hop : List Sample) (x : Sample) (run : ℕ) :
    feedRun (hop ++ [x]) run =
      if x.fullScale then
        ((feedRun hop run).1 || decide (3 ≤ (feedRun hop run).2 + 1), (feedRun hop run).2 + 1)
      else ((feedRun hop run).1, 0) := by
  rw [feedRun, List.foldl_append]
  rfl

/-- The count goes on over the boundary of a hop. -/
theorem feedRun_snd (seen hop : List Sample) :
    (feedRun hop (trailing Sample.fullScale seen)).2 = trailing Sample.fullScale (seen ++ hop) := by
  induction hop using List.reverseRecOn with
  | nil => rw [List.append_nil]; rfl
  | append_singleton hop x ih =>
    rw [feedRun_concat, ← List.append_assoc, trailing_concat, ← ih]
    split_ifs <;> rfl

theorem feedRun_fst (seen hop : List Sample) :
    (HasRun 3 Sample.fullScale seen ∨ (feedRun hop (trailing Sample.fullScale seen)).1 = true) ↔
      HasRun 3 Sample.fullScale (seen ++ hop) := by
  induction hop using List.reverseRecOn with
  | nil => simp [feedRun]
  | append_singleton hop x ih =>
    have hsnd := feedRun_snd seen hop
    rw [← List.append_assoc, hasRun_concat, ← ih, trailing_concat, feedRun_concat, hsnd]
    split_ifs
    · rw [Bool.or_eq_true, decide_eq_true_iff, or_assoc]
    · simp

/-! ### What has been asked so far -/

section During

variable {β : Type*} {i : ℕ} {f : Call → List β}

theorem during_concat (log : List Observed) (o : Observed) :
    during i f (log ++ [o]) = during i f log ++ o.ofMember i f := by
  simp [during]

theorem ofMember_of_ne {o : Observed} (h : ¬ (o.state = .capturing ∧ o.step = i)) :
    o.ofMember i f = [] := if_neg h

end During

namespace CaptureSequencer

theorem run_concat (s : CaptureSequencer) (calls : List Call) (c : Call) :
    s.run (calls ++ [c]) = (s.run calls).bind fun t => t.call c := by
  rw [run, List.foldlM_append]
  simp [run]

theorem observed_concat {s t : CaptureSequencer} {calls : List Call} (h : s.run calls = some t)
    (c : Call) : s.observed (calls ++ [c]) = s.observed calls ++ [⟨t.state, t.step, c⟩] := by
  induction calls generalizing s with
  | nil =>
    obtain rfl : s = t := Option.some.inj h
    rw [List.nil_append, observed, observed, List.nil_append]
    cases s.call c <;> rfl
  | cons b calls ih =>
    have hbind : (s.call b).bind (fun u => u.run calls) = some t := h
    obtain ⟨u, hu, hrest⟩ := Option.bind_eq_some_iff.mp hbind
    rw [List.cons_append, observed, observed, hu]
    dsimp only
    rw [ih hrest, List.cons_append]

end CaptureSequencer

/-! ### The invariant -/

/-- What holds of the sequencer after the calls of `log`. -/
structure SequencerInv (members : List String) (log : List Observed) (s : CaptureSequencer) :
    Prop where
  members_eq : s.members = members
  step_le : s.step ≤ members.length
  busy : s.state ≠ .idle → s.step < members.length
  /-- The captures are the members that are ended and stored, in order. -/
  captures_eq : s.captures =
    (((members.take s.step).zipIdx).filter fun m => Stored log m.2).map fun m => ⟨m.1, .none⟩
  steps_eq : s.steps = List.range s.step
  ended : ∀ i < s.step, (during i Call.gate log).length = 1
  /-- Members to come have been asked nothing, and the current one only while `Capturing`. -/
  ahead : ∀ (β : Type) (f : Call → List β) (i : ℕ),
    s.step < i ∨ (s.step = i ∧ s.state ≠ .capturing) → during i f log = []
  gate : during s.step Call.gate log = []
  referenceRun_eq : s.referenceRun = trailing Sample.fullScale (during s.step Call.reference log)
  measurementRun_eq :
    s.measurementRun = trailing Sample.fullScale (during s.step Call.measurement log)
  latched : s.overloadLatched = true ↔
    HasRun 3 Sample.fullScale (during s.step Call.reference log) ∨
      HasRun 3 Sample.fullScale (during s.step Call.measurement log)

theorem SequencerInv.start (members : List String) :
    SequencerInv members [] (CaptureSequencer.make members) where
  members_eq := rfl
  step_le := Nat.zero_le _
  busy h := absurd rfl h
  captures_eq := rfl
  steps_eq := rfl
  ended i hi := absurd hi (Nat.not_lt_zero i)
  ahead _ _ _ _ := rfl
  gate := rfl
  referenceRun_eq := rfl
  measurementRun_eq := rfl
  latched := by
    refine iff_of_false Bool.false_ne_true ?_
    rintro (h | h)
    · exact hasRun_nil (by decide) h
    · exact hasRun_nil (by decide) h

namespace SequencerInv

variable {members : List String} {log : List Observed} {s : CaptureSequencer}

section

variable (h : SequencerInv members log s)

include h

/-- Outside of a window the counts are zero and the latch is open. -/
theorem clean (hstate : s.state ≠ .capturing) :
    s.referenceRun = 0 ∧ s.measurementRun = 0 ∧ s.overloadLatched = false := by
  have hnone : ∀ f : Call → List Sample, during s.step f log = [] := fun f =>
    h.ahead Sample f s.step (.inr ⟨rfl, hstate⟩)
  refine ⟨?_, ?_, ?_⟩
  · rw [h.referenceRun_eq, hnone, trailing_nil]
  · rw [h.measurementRun_eq, hnone, trailing_nil]
  · rw [← Bool.not_eq_true, h.latched, hnone, hnone]
    rintro (hrun | hrun)
    · exact hasRun_nil (by decide) hrun
    · exact hasRun_nil (by decide) hrun

omit h in
/-- A call of the current step says nothing about the members before it. -/
theorem filter_stored (log : List Observed) (o : Observed) :
    (((members.take o.step).zipIdx).filter fun m => Stored (log ++ [o]) m.2) =
      ((members.take o.step).zipIdx).filter fun m => Stored log m.2 := by
  refine List.filter_congr fun m hm => ?_
  have hlt : m.2 < o.step := by
    have := (List.mem_zipIdx hm).2.1
    rw [List.length_take] at this
    omega
  have hold : ∀ (β : Type) (f : Call → List β), during m.2 f (log ++ [o]) = during m.2 f log := by
    intro β f
    rw [during_concat, ofMember_of_ne fun hmember => hlt.ne' hmember.2, List.append_nil]
  have hstored : Stored (log ++ [o]) m.2 ↔ Stored log m.2 := by simp only [Stored, hold]
  exact decide_eq_decide.mpr hstored

theorem quiet {c : Call} {state : CaptureState}
    (hcall : s.state = .capturing → c.gate = [] ∧ c.reference = [] ∧ c.measurement = [])
    (hbusy : state ≠ .idle → s.step < members.length)
    (hcapturing : state ≠ .capturing → s.state ≠ .capturing) :
    SequencerInv members (log ++ [⟨s.state, s.step, c⟩]) { s with state := state } := by
  have hother : ∀ (β : Type) (f : Call → List β) (i : ℕ),
      s.step ≠ i ∨ (s.state = .capturing → f c = []) →
      during i f (log ++ [⟨s.state, s.step, c⟩]) = during i f log := by
    intro β f i hor
    rw [during_concat, Observed.ofMember]
    split_ifs with hmember
    · obtain hne | hnone := hor
      · exact absurd hmember.2 hne
      · rw [hnone hmember.1, List.append_nil]
    · rw [List.append_nil]
  have hgate := hother Bool Call.gate s.step (.inr fun hs => (hcall hs).1)
  have hreference := hother Sample Call.reference s.step (.inr fun hs => (hcall hs).2.1)
  have hmeasurement := hother Sample Call.measurement s.step (.inr fun hs => (hcall hs).2.2)
  exact
    { members_eq := h.members_eq
      step_le := h.step_le
      busy := hbusy
      captures_eq := by
        rw [@filter_stored members log ⟨s.state, s.step, c⟩]
        exact h.captures_eq
      steps_eq := h.steps_eq
      ended := fun i hi => by
        rw [hother Bool Call.gate i (.inl hi.ne')]
        exact h.ended i hi
      ahead := fun β f i hor => by
        have hor' : s.step < i ∨ (s.step = i ∧ s.state ≠ .capturing) :=
          hor.imp_right fun hi => ⟨hi.1, hcapturing hi.2⟩
        have hmember : ¬ (s.state = .capturing ∧ s.step = i) := by
          rintro ⟨hs, hi⟩
          exact hor'.elim (fun hlt => hlt.ne hi) fun hne => hne.2 hs
        rw [during_concat, ofMember_of_ne hmember, List.append_nil]
        exact h.ahead β f i hor'
      gate := hgate.trans h.gate
      referenceRun_eq := by rw [hreference]; exact h.referenceRun_eq
      measurementRun_eq := by rw [hmeasurement]; exact h.measurementRun_eq
      latched := by rw [hreference, hmeasurement]; exact h.latched }

theorem arm :
    SequencerInv members (log ++ [⟨s.state, s.step, .arm⟩]) s.arm := by
  have hsame : SequencerInv members (log ++ [⟨s.state, s.step, .arm⟩]) s :=
    h.quiet (fun _ => ⟨rfl, rfl, rfl⟩) h.busy id
  rw [CaptureSequencer.arm]
  split_ifs with hidle hdone
  · exact hsame
  · exact hsame
  · have hstate : s.state ≠ .capturing := by
      rw [not_not.mp hidle]
      rintro ⟨⟩
    obtain ⟨href, hmeas, hlatch⟩ := h.clean hstate
    have hstep : s.step < members.length := by
      rw [← h.members_eq]
      exact not_le.mp hdone
    have hquiet : SequencerInv members (log ++ [⟨s.state, s.step, .arm⟩])
        { s with state := .armed } :=
      h.quiet (fun hs => absurd hs hstate) (fun _ => hstep) fun _ => hstate
    rw [href, hmeas, hlatch] at hquiet
    exact hquiet

theorem beginWait :
    SequencerInv members (log ++ [⟨s.state, s.step, .beginWait⟩]) s.beginWait := by
  rw [CaptureSequencer.beginWait]
  split_ifs with harmed
  · exact h.quiet (fun _ => ⟨rfl, rfl, rfl⟩) h.busy id
  · have hstate : s.state = .armed := not_not.mp harmed
    refine h.quiet (fun _ => ⟨rfl, rfl, rfl⟩) (fun _ => h.busy ?_) fun _ => ?_
    · rw [hstate]
      rintro ⟨⟩
    · rw [hstate]
      rintro ⟨⟩

theorem beginCapture :
    SequencerInv members (log ++ [⟨s.state, s.step, .beginCapture⟩]) s.beginCapture := by
  rw [CaptureSequencer.beginCapture]
  split_ifs with hwaiting
  · exact h.quiet (fun _ => ⟨rfl, rfl, rfl⟩) h.busy id
  · have hstate : s.state = .waiting := not_not.mp hwaiting
    refine h.quiet (fun _ => ⟨rfl, rfl, rfl⟩) (fun _ => h.busy ?_) fun hne => absurd rfl hne
    rw [hstate]
    rintro ⟨⟩

theorem feedHop (referenceHop measurementHop : List Sample) :
    SequencerInv members (log ++ [⟨s.state, s.step, .feedHop referenceHop measurementHop⟩])
      (s.feedHop referenceHop measurementHop) := by
  rw [CaptureSequencer.feedHop]
  split_ifs with hcapturing
  · exact h.quiet (fun hs => absurd hs hcapturing) h.busy id
  · have hstate : s.state = .capturing := not_not.mp hcapturing
    have hquiet : ∀ i, s.step ≠ i → ∀ (β : Type) (f : Call → List β),
        during i f (log ++ [⟨s.state, s.step, .feedHop referenceHop measurementHop⟩]) =
          during i f log := by
      intro i hne β f
      rw [during_concat, ofMember_of_ne fun hmember => hne hmember.2, List.append_nil]
    have hself : ∀ (β : Type) (f : Call → List β),
        during s.step f (log ++ [⟨s.state, s.step, .feedHop referenceHop measurementHop⟩]) =
          during s.step f log ++ f (.feedHop referenceHop measurementHop) := by
      intro β f
      rw [during_concat, Observed.ofMember, if_pos ⟨hstate, rfl⟩]
    exact
      { members_eq := h.members_eq
        step_le := h.step_le
        busy := h.busy
        captures_eq := by
          rw [@filter_stored members log ⟨s.state, s.step, _⟩]
          exact h.captures_eq
        steps_eq := h.steps_eq
        ended := fun i hi => by
          rw [hquiet i hi.ne']
          exact h.ended i hi
        ahead := fun β f i hor => by
          have hlt : s.step < i := hor.resolve_right fun hi => hi.2 hstate
          rw [hquiet i hlt.ne]
          exact h.ahead β f i (.inl hlt)
        gate := by
          rw [hself, h.gate]
          rfl
        referenceRun_eq := by
          rw [hself, h.referenceRun_eq]
          exact feedRun_snd _ _
        measurementRun_eq := by
          rw [hself, h.measurementRun_eq]
          exact feedRun_snd _ _
        latched := by
          have href := feedRun_fst (during s.step Call.reference log) referenceHop
          have hmeas := feedRun_fst (during s.step Call.measurement log) measurementHop
          rw [hself, hself, h.referenceRun_eq, h.measurementRun_eq, Bool.or_eq_true,
            Bool.or_eq_true, h.latched]
          exact (by tauto : _ ↔ _).trans (or_congr href hmeas) }

theorem refusal_eq_none_iff (hstate : s.state = .capturing) (gateCleared : Bool) :
    s.refusal gateCleared = .none ↔
      Stored (log ++ [⟨s.state, s.step, .endCapture gateCleared⟩]) s.step := by
  have hself : ∀ (β : Type) (f : Call → List β),
      during s.step f (log ++ [⟨s.state, s.step, .endCapture gateCleared⟩]) =
        during s.step f log ++ f (.endCapture gateCleared) := by
    intro β f
    rw [during_concat, Observed.ofMember, if_pos ⟨hstate, rfl⟩]
  have hlatched := h.latched
  rw [Stored, hself, hself, hself, h.gate, CaptureSequencer.refusal]
  simp only [Call.gate, Call.reference, Call.measurement, List.nil_append, List.append_nil]
  cases hlatch : s.overloadLatched with
  | true =>
    rw [hlatch] at hlatched
    have hrun := hlatched.mp rfl
    refine iff_of_false (by simp) ?_
    rintro ⟨_, href, hmeas⟩
    exact hrun.elim href hmeas
  | false =>
    rw [hlatch] at hlatched
    have hrun := not_or.mp fun hor => Bool.false_ne_true (hlatched.mpr hor)
    cases gateCleared with
    | false => simp
    | true => simp [hrun.1, hrun.2]

theorem endCapture (gateCleared : Bool) :
    ∃ t, s.endCapture gateCleared = some t ∧
      SequencerInv members (log ++ [⟨s.state, s.step, .endCapture gateCleared⟩]) t := by
  by_cases hstate : s.state = .capturing
  · have hstep : s.step < members.length := h.busy (by rw [hstate]; rintro ⟨⟩)
    have hname : s.members[s.step]? = some members[s.step] := by
      rw [h.members_eq, List.getElem?_eq_getElem hstep]
    set log' := log ++ [⟨s.state, s.step, .endCapture gateCleared⟩] with hlog'
    have hlater : ∀ i, s.step < i → ∀ (β : Type) (f : Call → List β), during i f log' = [] := by
      intro i hlt β f
      rw [hlog', during_concat, ofMember_of_ne fun hmember => hlt.ne hmember.2, List.append_nil]
      exact h.ahead β f i (.inl hlt)
    have hcaptures : (if s.refusal gateCleared = .none then
          s.captures ++ [⟨members[s.step], s.refusal gateCleared⟩] else s.captures) =
        (((members.take (s.step + 1)).zipIdx).filter fun m => Stored log' m.2).map
          fun m => ⟨m.1, .none⟩ := by
      have hlength : (members.take s.step).length = s.step := List.length_take_of_le hstep.le
      have hold := @filter_stored members log ⟨s.state, s.step, .endCapture gateCleared⟩
      rw [List.take_add_one, List.getElem?_eq_getElem hstep, Option.toList_some, List.zipIdx_append,
        hlength, Nat.zero_add, List.zipIdx_singleton, List.filter_append, List.map_append, hold,
        ← h.captures_eq]
      have hiff : s.refusal gateCleared = .none ↔ Stored log' s.step :=
        h.refusal_eq_none_iff hstate gateCleared
      by_cases hstored : s.refusal gateCleared = .none
      · simp [hstored, hiff.mp hstored]
      · simp [hstored, mt hiff.mpr hstored]
    refine ⟨{ s with
        lastRefusal := s.refusal gateCleared
        captures := if s.refusal gateCleared = .none then
          s.captures ++ [⟨members[s.step], s.refusal gateCleared⟩] else s.captures
        steps := s.steps ++ [s.step]
        step := s.step + 1
        state := if s.step + 1 ≥ s.members.length then .idle else .armed
        referenceRun := 0
        measurementRun := 0
        overloadLatched := false }, ?_, ?_⟩
    · rw [CaptureSequencer.endCapture, if_neg (not_not.mpr hstate), hname]
      by_cases hstored : s.refusal gateCleared = .none
      · simp only [hstored, if_true, Option.map_some]
      · simp only [if_neg hstored, Option.map_some]
    · exact
        { members_eq := h.members_eq
          step_le := hstep
          busy := fun hbusy => by
            by_contra hdone
            exact hbusy (if_pos (by rw [h.members_eq]; exact not_lt.mp hdone))
          captures_eq := hcaptures
          steps_eq := by
            rw [List.range_succ, ← h.steps_eq]
          ended := fun i hi => by
            rw [hlog', during_concat]
            obtain rfl | hlt := (Nat.lt_succ_iff.mp hi).eq_or_lt
            · rw [h.gate, Observed.ofMember, if_pos ⟨hstate, rfl⟩]
              rfl
            · rw [ofMember_of_ne fun hmember => hlt.ne' hmember.2, List.append_nil]
              exact h.ended i hlt
          ahead := fun β f i hor => hlater i (by
            obtain hlt | ⟨heq, _⟩ := hor
            · exact Nat.lt_of_succ_lt hlt
            · exact heq ▸ Nat.lt_succ_self s.step) β f
          gate := hlater _ (Nat.lt_succ_self _) _ _
          referenceRun_eq := by rw [hlater _ (Nat.lt_succ_self _), trailing_nil]
          measurementRun_eq := by rw [hlater _ (Nat.lt_succ_self _), trailing_nil]
          latched := by
            rw [hlater _ (Nat.lt_succ_self _), hlater _ (Nat.lt_succ_self _), or_self]
            exact iff_of_false Bool.false_ne_true (hasRun_nil (by decide)) }
  · rw [CaptureSequencer.endCapture, if_pos hstate]
    exact ⟨s, rfl, h.quiet (fun hs => absurd hs hstate) h.busy id⟩

/-- **Headline.** One call reads no member that there is not, and keeps the invariant. -/
theorem call (c : Call) :
    ∃ t, s.call c = some t ∧ SequencerInv members (log ++ [⟨s.state, s.step, c⟩]) t := by
  cases c with
  | arm => exact ⟨_, rfl, h.arm⟩
  | beginWait => exact ⟨_, rfl, h.beginWait⟩
  | beginCapture => exact ⟨_, rfl, h.beginCapture⟩
  | feedHop referenceHop measurementHop => exact ⟨_, rfl, h.feedHop referenceHop measurementHop⟩
  | endCapture gateCleared => exact h.endCapture gateCleared

end

end SequencerInv

theorem SequencerInv.run (members : List String) (calls : List Call) :
    ∃ s, (CaptureSequencer.make members).run calls = some s ∧
      SequencerInv members ((CaptureSequencer.make members).observed calls) s := by
  induction calls using List.reverseRecOn with
  | nil => exact ⟨_, rfl, SequencerInv.start members⟩
  | append_singleton calls c ih =>
    obtain ⟨s, hrun, hinv⟩ := ih
    obtain ⟨t, hcall, hinv'⟩ := hinv.call c
    refine ⟨t, ?_, ?_⟩
    · rw [CaptureSequencer.run_concat, hrun]
      exact hcall
    · rw [CaptureSequencer.observed_concat hrun]
      exact hinv'

end Sequencer

end RtaTool
