import RtaTool.Lib.Machine
import RtaTool.Measure.RawCaptureBuffer
import RtaTool.Measure.RoutingPlan

/-!
# The shared capture

LOCATE, SWEEP and CAL all capture through one accumulator of the analysis thread.
`armLocateCapture` leaves a request and clears the result; the next drain takes the request up,
feeds the hops of the requested route to the accumulator and stores the capture once it is full.
Nothing cancels an accumulation: a capture that its requester gave up on goes on filling until a
later request is taken up.

`armLocateCapture` clears the result before it raises the request, so that nobody mistakes the last
answer for the next one. A drain that is already under way does not see either. It may still
complete the accumulation it is on, and then it stores that capture after the clear, in the place
of the answer the new request is waiting for.

`StoresNoLeftover` excludes exactly this: a store between the clear and the taking up of the
request. Every run without such a store answers every request with a capture of its own.

A step is one access to the words the two threads share, or one hop. What the hops are, and of
which route, is given by the actions. `drained` and `armed` are bookkeeping: all hops drained so
far, and the route and length of the last arm with how many hops there had been when it returned.

## Main definitions

* `LocateCapture`, `ArmPc`, `TapPc`, `LocateRun`, `LocateAct`, `locateRuns` -- the machine
* `AnswersArm` -- what a capture owes to the arm it is returned for
* `LocateInv` -- the invariant

## Main results

* `locateRuns_answers` -- every capture that is read answers the last arm
-/

namespace RtaTool

variable {Sample : Type}

/-- `LocateCapture`. -/
structure LocateCapture (Sample : Type) where
  reference : List Sample
  measurement : List Sample

/-- Where the message thread stands in `armLocateCapture(routeIndex, length)`: after the first,
the second and the third of its four stores. -/
inductive ArmPc
  | idle
  | routeStored (routeIndex : ℤ) (length : ℕ)
  | lengthStored (routeIndex : ℤ) (length : ℕ)
  | cleared (routeIndex : ℤ) (length : ℕ)

/-- Where the analysis thread stands: outside a drain, between the accesses that take a request up,
between two hops, or about to store a full capture. -/
inductive TapPc
  | waiting
  | taking
  | routeLoaded
  | draining
  | full

/-- The words of the capture path and where the two threads stand. -/
structure LocateRun (Sample : Type) where
  requestedRouteIndex : ℤ := 0
  requestedCaptureLength : ℕ := 0
  locateArmRequested : Bool := false
  locateCapture : Option (LocateCapture Sample) := none
  msg : ArmPc := .idle
  locateRouteIndex : ℤ := -1
  locateBuffer : RawCaptureBuffer Sample := {}
  locateCapturing : Bool := false
  tap : TapPc := .waiting
  drained : List (PairedHop Sample) := []
  armed : Option (ℤ × ℕ × ℕ) := none

/-- The accesses. `poll` is `locateCapture()`. -/
inductive LocateAct (Sample : Type)
  | storeRoute (routeIndex : ℤ) (length : ℕ)
  | storeLength
  | clearCapture
  | raiseRequest
  | poll
  | exchangeRequest
  | loadRoute
  | loadLength
  | hop (h : PairedHop Sample)
  | storeCapture
  | endDrain
  deriving DecidableEq

namespace LocateRun

/-- Whether the tap is for this hop: the route's position is the requested one, and it has an
analyser. -/
def taps (s : LocateRun Sample) (h : PairedHop Sample) : Prop :=
  h.route < kMaxTransferFunctions ∧ s.locateCapturing = true ∧ (h.route : ℤ) = s.locateRouteIndex

instance (s : LocateRun Sample) (h : PairedHop Sample) : Decidable (s.taps h) :=
  inferInstanceAs (Decidable (_ ∧ _ ∧ _))

/-- One hop of `drainPaired`, for one route. -/
def drainHop (s : LocateRun Sample) (h : PairedHop Sample) : LocateRun Sample :=
  if s.taps h then
    let buffer := s.locateBuffer.feedHop h.reference h.measurement
    { s with
      drained := s.drained ++ [h]
      locateBuffer := buffer
      tap := if buffer.isFull then .full else .draining }
  else { s with drained := s.drained ++ [h] }

/-- One access of the message thread. -/
def messageStep (s : LocateRun Sample) : ArmPc → LocateAct Sample → Option (LocateRun Sample)
  | .idle, .storeRoute routeIndex length =>
    some { s with requestedRouteIndex := routeIndex, msg := .routeStored routeIndex length }
  | .routeStored routeIndex length, .storeLength =>
    some { s with requestedCaptureLength := length, msg := .lengthStored routeIndex length }
  | .lengthStored routeIndex length, .clearCapture =>
    some { s with locateCapture := none, msg := .cleared routeIndex length }
  | .cleared routeIndex length, .raiseRequest =>
    some { s with
      locateArmRequested := true
      msg := .idle
      armed := some (routeIndex, length, s.drained.length) }
  | .idle, .poll => some s
  | _, _ => none

/-- One access of the analysis thread. A drain may end after any hop: the rings are empty, or the
thread is told to exit. -/
def tapStep (zero : Sample) (s : LocateRun Sample) :
    TapPc → LocateAct Sample → Option (LocateRun Sample)
  | .waiting, .exchangeRequest =>
    some { s with
      locateArmRequested := false
      tap := if s.locateArmRequested then .taking else .draining }
  | .taking, .loadRoute =>
    some { s with locateRouteIndex := s.requestedRouteIndex, tap := .routeLoaded }
  | .routeLoaded, .loadLength =>
    some { s with
      locateBuffer := .arm zero s.requestedCaptureLength
      locateCapturing := true
      tap := .draining }
  | .draining, .hop h => some (s.drainHop h)
  | .full, .storeCapture =>
    some { s with
      locateCapture := some ⟨s.locateBuffer.reference, s.locateBuffer.measurement⟩
      locateCapturing := false
      tap := .draining }
  | .draining, .endDrain => some { s with tap := .waiting }
  | _, _ => none

end LocateRun

/-- Whose access it is. -/
def LocateAct.isMessage : LocateAct Sample → Bool
  | .storeRoute _ _ | .storeLength | .clearCapture | .raiseRequest | .poll => true
  | _ => false

/-- The capture path from the constructors on. -/
def locateRuns (zero : Sample) : Machine (LocateRun Sample) (LocateAct Sample) where
  init s := s = {}
  step s a := if a.isMessage then s.messageStep s.msg a else s.tapStep zero s.tap a

/-- The capture is as long as it was asked to be on both channels, and it is the beginning of a
stretch of the requested route's hops, without one left out, all of them drained after the arm had
returned. -/
def AnswersArm (drained : List (PairedHop Sample)) (arm : ℤ × ℕ × ℕ)
    (capture : LocateCapture Sample) : Prop :=
  capture.reference.length = arm.2.1 ∧ capture.measurement.length = arm.2.1 ∧
    ∃ hops : List (PairedHop Sample),
      hops <:+: (drained.drop arm.2.2).filter (fun h => (h.route : ℤ) = arm.1) ∧
      capture.reference = (hops.flatMap (·.reference)).take arm.2.1 ∧
      capture.measurement = (hops.flatMap (·.measurement)).take arm.2.1

/-- A capture that `locateCapture()` returns answers the last arm. -/
def PollAnswers (s : LocateRun Sample) (a : LocateAct Sample) (_ : LocateRun Sample) : Prop :=
  a = .poll → ∀ capture, s.locateCapture = some capture →
    ∃ arm, s.armed = some arm ∧ AnswersArm s.drained arm capture

/-- The request of an arm that has cleared the result has not been taken up. -/
def LocateRun.Unanswered (s : LocateRun Sample) : Prop :=
  match s.msg with
  | .idle => s.locateArmRequested = true
  | .cleared _ _ => True
  | .routeStored _ _ | .lengthStored _ _ => False

instance (s : LocateRun Sample) : Decidable s.Unanswered :=
  match h : s.msg with
  | .idle => decidable_of_iff (s.locateArmRequested = true) (by rw [LocateRun.Unanswered, h])
  | .cleared _ _ => isTrue (by rw [LocateRun.Unanswered, h]; trivial)
  | .routeStored _ _ | .lengthStored _ _ => isFalse (by rw [LocateRun.Unanswered, h]; exact id)

/-- No capture is stored between the clear of an arm and the taking up of its request. -/
def StoresNoLeftover (s : LocateRun Sample) (a : LocateAct Sample) (_ : LocateRun Sample) : Prop :=
  a = .storeCapture → ¬ s.Unanswered

instance [DecidableEq Sample] (s : LocateRun Sample) (a : LocateAct Sample) (t : LocateRun Sample) :
    Decidable (StoresNoLeftover s a t) :=
  inferInstanceAs (Decidable (_ → _))

/-! ### What a step can be -/

/-- The steps, with what each needs. -/
inductive LocateStep (zero : Sample) (s : LocateRun Sample) :
    LocateAct Sample → LocateRun Sample → Prop
  | storeRoute (routeIndex length) (hmsg : s.msg = .idle) :
      LocateStep zero s (.storeRoute routeIndex length)
        { s with requestedRouteIndex := routeIndex, msg := .routeStored routeIndex length }
  | storeLength (routeIndex length) (hmsg : s.msg = .routeStored routeIndex length) :
      LocateStep zero s .storeLength
        { s with requestedCaptureLength := length, msg := .lengthStored routeIndex length }
  | clearCapture (routeIndex length) (hmsg : s.msg = .lengthStored routeIndex length) :
      LocateStep zero s .clearCapture
        { s with locateCapture := none, msg := .cleared routeIndex length }
  | raiseRequest (routeIndex length) (hmsg : s.msg = .cleared routeIndex length) :
      LocateStep zero s .raiseRequest
        { s with
          locateArmRequested := true
          msg := .idle
          armed := some (routeIndex, length, s.drained.length) }
  | poll (hmsg : s.msg = .idle) : LocateStep zero s .poll s
  | exchangeRequest (htap : s.tap = .waiting) :
      LocateStep zero s .exchangeRequest
        { s with
          locateArmRequested := false
          tap := if s.locateArmRequested then .taking else .draining }
  | loadRoute (htap : s.tap = .taking) :
      LocateStep zero s .loadRoute
        { s with locateRouteIndex := s.requestedRouteIndex, tap := .routeLoaded }
  | loadLength (htap : s.tap = .routeLoaded) :
      LocateStep zero s .loadLength
        { s with
          locateBuffer := .arm zero s.requestedCaptureLength
          locateCapturing := true
          tap := .draining }
  | hop (h) (htap : s.tap = .draining) : LocateStep zero s (.hop h) (s.drainHop h)
  | storeCapture (htap : s.tap = .full) :
      LocateStep zero s .storeCapture
        { s with
          locateCapture := some ⟨s.locateBuffer.reference, s.locateBuffer.measurement⟩
          locateCapturing := false
          tap := .draining }
  | endDrain (htap : s.tap = .draining) :
      LocateStep zero s .endDrain { s with tap := .waiting }

theorem locateRuns_step_cases {zero : Sample} {s t : LocateRun Sample} {a : LocateAct Sample}
    (h : (locateRuns zero).step s a = some t) : LocateStep zero s a t := by
  simp only [locateRuns] at h
  split at h
  case isTrue =>
    rw [LocateRun.messageStep.eq_def] at h
    split at h
    all_goals cases h
    · exact .storeRoute _ _ ‹_›
    · exact .storeLength _ _ ‹_›
    · exact .clearCapture _ _ ‹_›
    · exact .raiseRequest _ _ ‹_›
    · exact .poll ‹_›
  case isFalse =>
    rw [LocateRun.tapStep.eq_def] at h
    split at h
    all_goals cases h
    · exact .exchangeRequest ‹_›
    · exact .loadRoute ‹_›
    · exact .loadLength ‹_›
    · exact .hop _ ‹_›
    · exact .storeCapture ‹_›
    · exact .endDrain ‹_›

/-! ### The invariant -/

namespace LocateRun

/-- The accumulator holds hops of the last arm: a stretch that goes on to the last one drained. Of
a route without an analyser there are none. -/
def Accumulates (zero : Sample) (s : LocateRun Sample) : Prop :=
  ∃ routeIndex length since, s.armed = some (routeIndex, length, since) ∧
    s.locateRouteIndex = routeIndex ∧
    ∃ hops, hops <:+ (s.drained.drop since).filter (fun h => (h.route : ℤ) = routeIndex) ∧
      s.locateBuffer.Holds zero length hops ∧ (kMaxTransferFunctions ≤ routeIndex → hops = [])

/-- What the analysis thread is about, once it has taken up the last request. -/
def TapInv (zero : Sample) (s : LocateRun Sample) : Prop :=
  match s.tap with
  | .taking => s.armed.isSome
  | .routeLoaded => ∃ routeIndex length since, s.armed = some (routeIndex, length, since) ∧
      s.locateRouteIndex = routeIndex
  | .waiting | .draining | .full => s.locateCapturing = true → s.Accumulates zero

/-- The words of the request are those of the arm that is made, or of the last one. -/
def Requests (s : LocateRun Sample) : Prop :=
  match s.msg with
  | .idle => ∀ routeIndex length since, s.armed = some (routeIndex, length, since) →
      s.requestedRouteIndex = routeIndex ∧ s.requestedCaptureLength = length
  | .routeStored routeIndex _ => s.requestedRouteIndex = routeIndex
  | .lengthStored routeIndex length | .cleared routeIndex length =>
    s.requestedRouteIndex = routeIndex ∧ s.requestedCaptureLength = length

end LocateRun

/-- The invariant of the capture path. Between two arms there is nothing in the slot until the
request is taken up, and after that only what the accumulation of this arm gives. -/
structure LocateInv (zero : Sample) (s : LocateRun Sample) : Prop where
  bound : ∀ routeIndex length since, s.armed = some (routeIndex, length, since) →
    since ≤ s.drained.length
  requests : s.Requests
  empty : s.Unanswered → s.locateCapture = none
  made : s.msg = .idle → s.locateArmRequested = true → s.armed.isSome
  answers : s.msg = .idle → ∀ capture, s.locateCapture = some capture →
    ∃ arm, s.armed = some arm ∧ AnswersArm s.drained arm capture
  tapInv : s.msg = .idle → s.locateArmRequested = false → s.TapInv zero
  full : s.tap = .full → s.locateCapturing = true ∧ s.locateBuffer.isFull = true

theorem locateInv_init (zero : Sample) : LocateInv zero ({} : LocateRun Sample) where
  bound _ _ _ h := by cases h
  requests := by
    intro _ _ _ h
    cases h
  empty h := by cases h
  made _ h := by cases h
  answers _ _ h := by cases h
  tapInv _ _ := by
    intro h
    cases h
  full h := by cases h

/-! ### One hop more -/

theorem filter_drop_append (drained : List (PairedHop Sample)) (h : PairedHop Sample)
    {routeIndex : ℤ} {since : ℕ} (hsince : since ≤ drained.length) :
    ((drained ++ [h]).drop since).filter (fun h => (h.route : ℤ) = routeIndex) =
      (drained.drop since).filter (fun h => (h.route : ℤ) = routeIndex) ++
        if (h.route : ℤ) = routeIndex then [h] else [] := by
  rw [List.drop_append_of_le_length hsince, List.filter_append]
  congr 1
  by_cases hr : (h.route : ℤ) = routeIndex <;> simp [hr]

theorem AnswersArm.append {drained : List (PairedHop Sample)} {arm : ℤ × ℕ × ℕ}
    {capture : LocateCapture Sample} (h : AnswersArm drained arm capture)
    (hsince : arm.2.2 ≤ drained.length) (hop : PairedHop Sample) :
    AnswersArm (drained ++ [hop]) arm capture := by
  obtain ⟨href, hmeas, hops, hin, hrest⟩ := h
  refine ⟨href, hmeas, hops, ?_, hrest⟩
  rw [filter_drop_append drained hop hsince]
  exact hin.trans (List.prefix_append _ _).isInfix

namespace LocateRun

theorem drainHop_drained (s : LocateRun Sample) (h : PairedHop Sample) :
    (s.drainHop h).drained = s.drained ++ [h] := by
  rw [drainHop]
  split <;> rfl

theorem drainHop_frame (s : LocateRun Sample) (h : PairedHop Sample) :
    (s.drainHop h).requestedRouteIndex = s.requestedRouteIndex ∧
      (s.drainHop h).requestedCaptureLength = s.requestedCaptureLength ∧
      (s.drainHop h).locateArmRequested = s.locateArmRequested ∧
      (s.drainHop h).locateCapture = s.locateCapture ∧ (s.drainHop h).msg = s.msg ∧
      (s.drainHop h).locateRouteIndex = s.locateRouteIndex ∧
      (s.drainHop h).locateCapturing = s.locateCapturing ∧ (s.drainHop h).armed = s.armed := by
  rw [drainHop]
  split <;> exact ⟨rfl, rfl, rfl, rfl, rfl, rfl, rfl, rfl⟩

variable {s : LocateRun Sample} {zero : Sample}

theorem drainHop_tap (htap : s.tap = .draining) (h : PairedHop Sample) :
    (s.drainHop h).tap = .draining ∨
      ((s.drainHop h).tap = .full ∧ s.locateCapturing = true ∧
        (s.drainHop h).locateBuffer.isFull = true) := by
  rw [drainHop]
  by_cases ht : s.taps h
  · rw [if_pos ht]
    by_cases hfull : (s.locateBuffer.feedHop h.reference h.measurement).isFull = true
    · exact .inr ⟨if_pos hfull, ht.2.1, hfull⟩
    · exact .inl (if_neg hfull)
  · rw [if_neg ht]
    exact .inl htap

theorem Accumulates.drainHop (hs : s.Accumulates zero)
    (hbound : ∀ routeIndex length since, s.armed = some (routeIndex, length, since) →
      since ≤ s.drained.length) (hcap : s.locateCapturing = true) (h : PairedHop Sample) :
    (s.drainHop h).Accumulates zero := by
  obtain ⟨routeIndex, length, since, harmed, hindex, hops, hsuffix, hholds, hnone⟩ := hs
  have hsince := hbound _ _ _ harmed
  rw [LocateRun.drainHop]
  by_cases hr : (h.route : ℤ) = s.locateRouteIndex
  · by_cases hroute : h.route < kMaxTransferFunctions
    · rw [if_pos ⟨hroute, hcap, hr⟩]
      refine ⟨routeIndex, length, since, harmed, hindex, hops ++ [h], ?_, hholds.feedHop h, ?_⟩
      · rw [filter_drop_append _ _ hsince, if_pos (hr.trans hindex)]
        obtain ⟨before, hbefore⟩ := hsuffix
        exact ⟨before, by rw [← hbefore, List.append_assoc]⟩
      · intro hge
        omega
    · rw [if_neg fun ht => hroute ht.1]
      obtain rfl : hops = [] := hnone (by omega)
      exact ⟨routeIndex, length, since, harmed, hindex, [], List.nil_suffix, hholds, fun _ => rfl⟩
  · rw [if_neg fun ht => hr ht.2.2]
    refine ⟨routeIndex, length, since, harmed, hindex, hops, ?_, hholds, hnone⟩
    rw [filter_drop_append _ _ hsince, if_neg fun ht => hr (ht.trans hindex.symm),
      List.append_nil]
    exact hsuffix

theorem Accumulates.answers (hs : s.Accumulates zero) (hfull : s.locateBuffer.isFull = true) :
    ∃ arm, s.armed = some arm ∧
      AnswersArm s.drained arm ⟨s.locateBuffer.reference, s.locateBuffer.measurement⟩ := by
  obtain ⟨routeIndex, length, since, harmed, -, hops, hsuffix, hholds, -⟩ := hs
  obtain ⟨href, hmeas, hlen, hlen'⟩ := hholds.of_isFull hfull
  exact ⟨_, harmed, hlen, hlen', hops, hsuffix.isInfix, href, hmeas⟩

end LocateRun

/-! ### The invariant along the steps -/

/-- A hop moves the accumulator along and nothing the message thread reads. -/
theorem LocateInv.hop {zero : Sample} {s : LocateRun Sample} (hs : LocateInv zero s)
    (htap : s.tap = .draining) (h : PairedHop Sample) : LocateInv zero (s.drainHop h) := by
  obtain ⟨hroute, hlength, hflag, hslot, hmsg, hindex, hcap, harmed⟩ := s.drainHop_frame h
  have hdrained := s.drainHop_drained h
  refine ⟨fun r n k hk => ?_, ?_, ?_, ?_, ?_, ?_, ?_⟩
  · rw [harmed] at hk
    rw [hdrained, List.length_append]
    have := hs.bound r n k hk
    omega
  · rw [LocateRun.Requests, hmsg, harmed, hroute, hlength]
    exact hs.requests
  · rw [LocateRun.Unanswered, hmsg, hflag, hslot]
    exact hs.empty
  · rw [hmsg, hflag, harmed]
    exact hs.made
  · rw [hmsg, hslot, harmed, hdrained]
    intro hidle capture hcapture
    obtain ⟨arm, harm, hanswer⟩ := hs.answers hidle capture hcapture
    exact ⟨arm, harm, hanswer.append (hs.bound _ _ _ harm) h⟩
  · rw [hmsg, hflag]
    intro hidle hdown
    have htapInv := hs.tapInv hidle hdown
    rw [LocateRun.TapInv, htap] at htapInv
    have hgoal (hc : s.locateCapturing = true) : (s.drainHop h).Accumulates zero :=
      (htapInv hc).drainHop hs.bound hc h
    rw [LocateRun.TapInv, hcap]
    rcases LocateRun.drainHop_tap htap h with hd | ⟨hf, -, -⟩
    · rw [hd]
      exact hgoal
    · rw [hf]
      exact hgoal
  · intro hf
    rw [hcap]
    rcases LocateRun.drainHop_tap htap h with hd | ⟨-, hcapturing, hfull⟩
    · rw [hd] at hf
      cases hf
    · exact ⟨hcapturing, hfull⟩

theorem LocateInv.step {zero : Sample} {s t : LocateRun Sample} {a : LocateAct Sample}
    (hs : LocateInv zero s) (h : LocateStep zero s a t) (hok : StoresNoLeftover s a t) :
    LocateInv zero t := by
  have hreq := hs.requests
  cases h with
  | storeRoute routeIndex length hmsg =>
    exact ⟨hs.bound, rfl, fun h => h.elim, nofun, nofun, nofun, hs.full⟩
  | storeLength routeIndex length hmsg =>
    rw [LocateRun.Requests, hmsg] at hreq
    exact ⟨hs.bound, ⟨hreq, rfl⟩, fun h => h.elim, nofun, nofun, nofun, hs.full⟩
  | clearCapture routeIndex length hmsg =>
    rw [LocateRun.Requests, hmsg] at hreq
    exact ⟨hs.bound, hreq, fun _ => rfl, nofun, nofun, nofun, hs.full⟩
  | raiseRequest routeIndex length hmsg =>
    rw [LocateRun.Requests, hmsg] at hreq
    have hempty : s.locateCapture = none := hs.empty (by rw [LocateRun.Unanswered, hmsg]; trivial)
    refine ⟨fun r n k hk => ?_, fun r n k hk => ?_, fun _ => hempty, fun _ _ => rfl, ?_,
      nofun, hs.full⟩
    · cases hk
      exact Nat.le_refl _
    · cases hk
      exact hreq
    · intro _ capture hcapture
      rw [show s.locateCapture = some capture from hcapture] at hempty
      cases hempty
  | poll hmsg => exact hs
  | exchangeRequest htap =>
    refine ⟨hs.bound, hs.requests, fun hun => hs.empty ?_, nofun, hs.answers, ?_, ?_⟩
    · revert hun
      rw [LocateRun.Unanswered, LocateRun.Unanswered]
      cases hm : s.msg with
      | idle => exact fun h => nomatch h
      | cleared => exact id
      | routeStored => exact id
      | lengthStored => exact id
    · intro hidle _
      rw [LocateRun.TapInv]
      cases hflag : s.locateArmRequested with
      | true => exact hs.made hidle hflag
      | false =>
        have htapInv := hs.tapInv hidle hflag
        rw [LocateRun.TapInv, htap] at htapInv
        exact htapInv
    · intro hf
      cases hflag : s.locateArmRequested <;> rw [hflag] at hf <;> cases hf
  | loadRoute htap =>
    refine ⟨hs.bound, hs.requests, hs.empty, hs.made, hs.answers, fun hidle hdown => ?_, nofun⟩
    have htapInv := hs.tapInv hidle hdown
    rw [LocateRun.TapInv, htap] at htapInv
    obtain ⟨⟨r, n, k⟩, harmed⟩ := Option.isSome_iff_exists.mp htapInv
    rw [LocateRun.Requests, show s.msg = .idle from hidle] at hreq
    exact ⟨r, n, k, harmed, (hreq r n k harmed).1⟩
  | loadLength htap =>
    refine ⟨hs.bound, hs.requests, hs.empty, hs.made, hs.answers, fun hidle hdown => ?_, nofun⟩
    have htapInv := hs.tapInv hidle hdown
    rw [LocateRun.TapInv, htap] at htapInv
    obtain ⟨r, n, k, harmed, hindex⟩ := htapInv
    rw [LocateRun.Requests, show s.msg = .idle from hidle] at hreq
    intro _
    refine ⟨r, n, k, harmed, hindex, [], List.nil_suffix, ?_, fun _ => rfl⟩
    rw [← (hreq r n k harmed).2]
    exact RawCaptureBuffer.holds_arm zero _
  | hop hop htap => exact hs.hop htap hop
  | storeCapture htap =>
    have hnot : ¬ s.Unanswered := hok rfl
    refine ⟨hs.bound, hs.requests, fun hun => absurd hun hnot, hs.made, fun hidle capture hc => ?_,
      fun _ _ h => absurd h Bool.false_ne_true, nofun⟩
    cases hc
    have hdown : s.locateArmRequested = false := by
      rw [LocateRun.Unanswered, show s.msg = .idle from hidle] at hnot
      exact Bool.eq_false_of_not_eq_true hnot
    have htapInv := hs.tapInv hidle hdown
    rw [LocateRun.TapInv, htap] at htapInv
    obtain ⟨hcap, hfull⟩ := hs.full htap
    exact (htapInv hcap).answers hfull
  | endDrain htap =>
    refine ⟨hs.bound, hs.requests, hs.empty, hs.made, hs.answers, fun hidle hdown => ?_, nofun⟩
    have htapInv := hs.tapInv hidle hdown
    rw [LocateRun.TapInv, htap] at htapInv
    exact htapInv

/-- **Headline.** In every run in which no capture is stored between the clear of an arm and the
taking up of its request, every capture that is read answers the last arm: it has the length that
was asked for on both channels and consists of consecutive hops of the route that was asked for,
drained after the arm. -/
theorem locateRuns_answers (zero : Sample) (acts : List (LocateAct Sample))
    (hok : (locateRuns zero).AlongSteps StoresNoLeftover {} acts) :
    (locateRuns zero).AlongSteps PollAnswers {} acts := by
  refine Machine.AlongSteps.of_invariant (LocateInv zero) ?_ (locateInv_init zero) hok
  intro s a t hs hstep hok
  have hcases := locateRuns_step_cases hstep
  refine ⟨hs.step hcases hok, fun hpoll capture hcapture => ?_⟩
  subst hpoll
  cases hcases with
  | poll hmsg => exact hs.answers hmsg capture hcapture

/-- An arm for `length` samples of route 0, from its first store to its last. -/
def armActs (length : ℕ) : List (LocateAct ℤ) :=
  [.storeRoute 0 length, .storeLength, .clearCapture, .raiseRequest]

/-- A request is taken up and one hop of route 0 is drained. -/
def takeUpActs : List (LocateAct ℤ) :=
  [.exchangeRequest, .loadRoute, .loadLength, .hop ⟨0, [7], [8], rfl⟩]

theorem locateRuns_answers_armed_once :
    (locateRuns (0 : ℤ)).AlongSteps PollAnswers {}
      (List.flatten [armActs 1, takeUpActs, [.storeCapture, .poll]]) :=
  locateRuns_answers 0 _ (by decide)

/-- **The last capture is taken for the next one.** A capture of one sample is complete but not
stored yet when two samples are asked for; the drain under way stores it after the clear, and the
next look finds a capture of one sample. -/
theorem locateRuns_returns_leftover :
    ¬ ∀ acts : List (LocateAct ℤ), (locateRuns (0 : ℤ)).AlongSteps PollAnswers {} acts := by
  intro h
  have hpoll := (h (List.flatten [armActs 1, takeUpActs, armActs 2, [.storeCapture]] ++ [.poll])).after
    rfl rfl
  obtain ⟨arm, harm, hlength, -⟩ := hpoll rfl ⟨[7], [8]⟩ rfl
  cases harm
  cases hlength

end RtaTool
