import RtaTool.Lib.Machine

/-!
# The RT60 worker

`Rt60Worker.cpp` and the loop over the bands in `Rt60Analysis.cpp`: one thread that analyses one
request at a time, newest first. `submit` replaces whatever is queued and cancels the job that is
running; the analysis reads the cancel flag between bands and may be cut short there; the thread
publishes an outcome only if nothing has superseded it.

What one band gives is a matter of signal processing and is a parameter here, as is what an
impulse response is. Whether an analysis refuses before its first band, what it puts together from
the bands and what it makes of an exception in one are in it too; the loop, and when the flag is
read, are not. The time an analysis took is left out of its result, and so are allocations that fail
outside the loop, for which the thread has a refusal of its own.

Everything but the flag is under the mutex, so `submit`, `poll`, taking a request and publishing
are one step each, and so is each reading of the flag with the band after it. Any caller may submit
anything; tickets need not increase.

## Main definitions

* `BandAnalysis` -- an analysis by bands; `analyse`, `BandLoop.step`
* `Rt60Request`, `Rt60Outcome`, `Rt60Analyses.outcome` -- the complete analysis of a request
* `JobPc`, `JobPc.step` -- where a job is, and its next step with the flag as it is read
* `Rt60Worker`, `submit`, `poll`, `take`, `publish`, `workerRuns`

## Main results

* `JobPc.finishes_step` -- a step that reads the flag as clear does not change what a job comes to
* `WorkerInv.step`
* `poll_delivers`, `waiting_answered` -- what a poll delivers, and what waiting means
-/

namespace RtaTool

/-! ### An analysis by bands -/

/-- An analysis: it may refuse its input at once, and otherwise goes through the edges one band at
a time. A band may throw, which is caught around the loop. -/
structure BandAnalysis (Input Result : Type) where
  Head : Type
  Edges : Type
  Band : Type
  head : Input → Except Result Head
  edges : Input → List Edges
  band : Head → Edges → Except String Band
  result : Head → List Band → Result
  failed : Head → String → Result

namespace BandAnalysis

variable {Input Result : Type} (A : BandAnalysis Input Result)

/-- The loop over the bands that are left, with no flag to read. -/
def loop (head : A.Head) : List A.Band → List A.Edges → Result
  | done, [] => A.result head done
  | done, edges :: rest =>
    match A.band head edges with
    | .ok band => loop head (done ++ [band]) rest
    | .error message => A.failed head message

/-- The whole analysis with no flag to read: `cancel == nullptr`. -/
def analyse (input : Input) : Result :=
  match A.head input with
  | .error refused => refused
  | .ok head => A.loop head [] (A.edges input)

/-- Where the loop is. -/
structure BandLoop where
  head : A.Head
  done : List A.Band
  rest : List A.Edges

variable {A}

/-- What the loop comes to if the flag is not set any more. -/
def BandLoop.finishes (l : A.BandLoop) : Result := A.loop l.head l.done l.rest

/-- One turn of the loop, with the flag as it is read. -/
def BandLoop.step (cancelled : Bool) (l : A.BandLoop) : A.BandLoop ⊕ Result :=
  match l.rest with
  | [] => .inr (A.result l.head l.done)
  | edges :: rest =>
    if cancelled then .inr (A.result l.head l.done)
    else
      match A.band l.head edges with
      | .ok band => .inl { l with done := l.done ++ [band], rest := rest }
      | .error message => .inr (A.failed l.head message)

/-- A turn that reads the flag as clear does not change what the loop comes to. -/
theorem BandLoop.finishes_step (l : A.BandLoop) :
    (l.step false).elim BandLoop.finishes id = l.finishes := by
  cases l with
  | mk head done rest =>
    cases rest with
    | nil => rfl
    | cons edges rest =>
      simp only [BandLoop.step, BandLoop.finishes, BandAnalysis.loop]
      cases A.band head edges with
      | ok band => rfl
      | error message => rfl

end BandAnalysis

/-! ### Requests and outcomes -/

/-- `Rt60BandSet`. -/
inductive Rt60BandSet
  | octave
  | third
  deriving DecidableEq, Repr

/-- The two analyses: of one impulse response or none, and of several. -/
structure Rt60Analyses (Ir Single Ensemble : Type) where
  single : BandAnalysis (Option Ir × Rt60BandSet) Single
  ensemble : BandAnalysis (List (Option Ir) × Rt60BandSet) Ensemble

/-- `Rt60Worker::Request`. -/
structure Rt60Request (Ir : Type) where
  ticket : ℕ
  set : Rt60BandSet
  primary : Option Ir
  ensemble : List (Option Ir)
  deriving DecidableEq

/-- `Rt60Worker::Outcome`. -/
structure Rt60Outcome (Single Ensemble : Type) where
  ticket : ℕ
  single : Option Single
  ensemble : Option Ensemble
  deriving DecidableEq

variable {Ir Single Ensemble : Type} (A : Rt60Analyses Ir Single Ensemble)

/-- The ensemble of a request, analysed to its end. -/
def Rt60Analyses.ensembleOf (request : Rt60Request Ir) : Option Ensemble :=
  if 2 ≤ request.ensemble.length then some (A.ensemble.analyse (request.ensemble, request.set))
  else none

/-- The complete analysis of a request. -/
def Rt60Analyses.outcome (request : Rt60Request Ir) : Rt60Outcome Single Ensemble where
  ticket := request.ticket
  single := request.primary.map fun ir => A.single.analyse (some ir, request.set)
  ensemble := A.ensembleOf request

/-! ### A job -/

/-- Where the thread is in a request. -/
inductive JobPc
  | begin
  | single (l : A.single.BandLoop)
  | between (primary : Option Single)
  | ensemble (primary : Option Single) (l : A.ensemble.BandLoop)
  | finished (primary : Option Single) (across : Option Ensemble)

variable {A}

/-- The next step of a job, with the flag as it is read. -/
def JobPc.step (request : Rt60Request Ir) (cancelled : Bool) : JobPc A → JobPc A
  | .begin =>
    match request.primary with
    | none => .between none
    | some ir =>
      match A.single.head (some ir, request.set) with
      | .error refused => .between (some refused)
      | .ok head => .single ⟨head, [], A.single.edges (some ir, request.set)⟩
  | .single l =>
    match l.step cancelled with
    | .inl l => .single l
    | .inr result => .between (some result)
  | .between primary =>
    if 2 ≤ request.ensemble.length ∧ cancelled = false then
      match A.ensemble.head (request.ensemble, request.set) with
      | .error refused => .finished primary (some refused)
      | .ok head =>
        .ensemble primary ⟨head, [], A.ensemble.edges (request.ensemble, request.set)⟩
    else .finished primary none
  | .ensemble primary l =>
    match l.step cancelled with
    | .inl l => .ensemble primary l
    | .inr result => .finished primary (some result)
  | .finished primary across => .finished primary across

/-- What a job comes to if the flag is not set any more. -/
def JobPc.finishes (request : Rt60Request Ir) : JobPc A → Rt60Outcome Single Ensemble
  | .begin => A.outcome request
  | .single l => ⟨request.ticket, some l.finishes, A.ensembleOf request⟩
  | .between primary => ⟨request.ticket, primary, A.ensembleOf request⟩
  | .ensemble primary l => ⟨request.ticket, primary, some l.finishes⟩
  | .finished primary across => ⟨request.ticket, primary, across⟩

/-- A step that reads the flag as clear does not change what the job comes to. -/
theorem JobPc.finishes_step (request : Rt60Request Ir) (pc : JobPc A) :
    (pc.step request false).finishes request = pc.finishes request := by
  cases pc with
  | begin =>
    simp only [step, finishes, Rt60Analyses.outcome]
    cases request.primary with
    | none => rfl
    | some ir =>
      simp only [Option.map_some, BandAnalysis.analyse]
      cases A.single.head (some ir, request.set) with
      | error refused => rfl
      | ok head => rfl
  | single l =>
    have hloop := l.finishes_step
    have hout : ∀ x, l.finishes = x → Rt60Outcome.mk request.ticket (some x)
        (A.ensembleOf request) = (JobPc.single l).finishes request := by
      rintro x rfl
      rfl
    simp only [step]
    cases hstep : l.step false with
    | inl l' =>
      rw [hstep] at hloop
      exact hout _ hloop.symm
    | inr result =>
      rw [hstep] at hloop
      exact hout _ hloop.symm
  | between primary =>
    simp only [step, finishes, Rt60Analyses.ensembleOf]
    by_cases htwo : 2 ≤ request.ensemble.length
    · rw [if_pos ⟨htwo, trivial⟩, if_pos htwo, BandAnalysis.analyse]
      cases A.ensemble.head (request.ensemble, request.set) with
      | error refused => rfl
      | ok head => rfl
    · rw [if_neg fun h => htwo h.1, if_neg htwo]
  | ensemble primary l =>
    have hloop := l.finishes_step
    have hout : ∀ x, l.finishes = x → Rt60Outcome.mk request.ticket primary (some x) =
        (JobPc.ensemble primary l).finishes request := by
      rintro x rfl
      rfl
    simp only [step]
    cases hstep : l.step false with
    | inl l' =>
      rw [hstep] at hloop
      exact hout _ hloop.symm
    | inr result =>
      rw [hstep] at hloop
      exact hout _ hloop.symm
  | finished primary across => rfl

/-! ### The worker -/

variable (A)

/-- Where the thread is. -/
inductive WorkerThread
  | none
  | waiting
  | job (request : Rt60Request Ir) (pc : JobPc A)
  | exited

/-- `Rt60Worker`. The last two fields are the history of its callers: the request submitted last,
and whether its outcome has been polled. -/
structure Rt60Worker where
  pending : Option (Rt60Request Ir)
  done : Option (Rt60Outcome Single Ensemble)
  newestTicket : ℕ
  running : Bool
  stop : Bool
  cancel : Bool
  thread : WorkerThread A
  asked : Option (Rt60Request Ir)
  answered : Bool

/-- A worker when it is made: its thread starts with the first request. -/
def Rt60Worker.fresh : Rt60Worker A where
  pending := none
  done := none
  newestTicket := 0
  running := false
  stop := false
  cancel := false
  thread := .none
  asked := none
  answered := false

variable {A}

/-- `submit(request)`. -/
def Rt60Worker.submit (w : Rt60Worker A) (request : Rt60Request Ir) : Rt60Worker A :=
  { w with
    newestTicket := request.ticket
    done := none
    pending := some request
    cancel := w.cancel || w.running
    thread := match w.thread with
      | .none => .waiting
      | thread => thread
    asked := some request
    answered := false }

/-- `poll()`: what it returns, and the worker without it. -/
def Rt60Worker.poll (w : Rt60Worker A) : Option (Rt60Outcome Single Ensemble) × Rt60Worker A :=
  (w.done, { w with done := none, answered := w.answered || w.done.isSome })

/-- The destructor, up to its join. -/
def Rt60Worker.destroy (w : Rt60Worker A) : Rt60Worker A := { w with stop := true, cancel := true }

/-- The thread takes a request. -/
def Rt60Worker.take (w : Rt60Worker A) (request : Rt60Request Ir) : Rt60Worker A :=
  { w with pending := none, running := true, cancel := false, thread := .job request .begin }

/-- The thread has an outcome: it is published unless it was cancelled or superseded. -/
def Rt60Worker.publish (w : Rt60Worker A) (outcome : Rt60Outcome Single Ensemble) : Rt60Worker A :=
  { w with
    running := false
    done := if w.stop = false ∧ w.pending = none ∧ w.cancel = false ∧
      outcome.ticket = w.newestTicket then some outcome else w.done
    thread := .waiting }

/-- The thread's next step, if it is not blocked. -/
def Rt60Worker.threadStep (w : Rt60Worker A) : Option (Rt60Worker A) :=
  match w.thread with
  | .none => none
  | .exited => none
  | .waiting =>
    if w.stop then some { w with thread := .exited }
    else w.pending.map w.take
  | .job request (.finished primary across) =>
    some (w.publish ⟨request.ticket, primary, across⟩)
  | .job request pc => some { w with thread := .job request (pc.step request w.cancel) }

/-- What happens to a worker. -/
inductive WorkerAct (Ir : Type)
  | submit (request : Rt60Request Ir)
  | poll
  | thread
  | destroy

variable (A)

/-- The runs of a worker. Nobody calls a worker that is being destroyed. -/
def workerRuns : Machine (Rt60Worker A) (WorkerAct Ir) where
  init w := w = .fresh A
  step w
    | .submit request => if w.stop then none else some (w.submit request)
    | .poll => if w.stop then none else some w.poll.2
    | .thread => w.threadStep
    | .destroy => some w.destroy

variable {A}

theorem Rt60Worker.threadStep_asked {w w' : Rt60Worker A} (h : w.threadStep = some w') :
    w'.asked = w.asked := by
  rw [threadStep] at h
  split at h
  · cases h
  · cases h
  · split at h
    · cases h
      rfl
    · obtain ⟨request, -, rfl⟩ := Option.map_eq_some_iff.mp h
      rfl
  · cases h
    rfl
  · cases h
    rfl

/-! ### The invariant -/

/-- What holds of a worker: `asked` and `answered` account for the request that is pending, in hand
or answered, and a job whose flag is clear comes to the complete analysis. -/
structure WorkerInv (w : Rt60Worker A) : Prop where
  notStarted : w.thread = .none → w.pending = none ∧ w.done = none ∧ w.asked = none
  running : w.running = true ↔ ∃ request pc, w.thread = .job request pc
  newest : ∀ request, w.asked = some request → w.newestTicket = request.ticket
  uncut : ∀ request pc, w.thread = .job request pc → w.cancel = false →
    pc.finishes request = A.outcome request
  pending : ∀ request, w.pending = some request →
    w.asked = some request ∧ w.answered = false ∧ w.done = none
  inHand : ∀ request pc, w.thread = .job request pc → w.pending = none → w.stop = false →
    w.cancel = false ∧ w.asked = some request ∧ w.answered = false ∧ w.done = none
  done : ∀ outcome, w.done = some outcome →
    ∃ request, w.asked = some request ∧ outcome = A.outcome request ∧ w.answered = false
  waiting : w.thread = .waiting → w.pending = none → w.stop = false →
    ∃ request, w.asked = some request ∧ (w.answered = true ∨ w.done = some (A.outcome request))

theorem workerInv_fresh : WorkerInv (.fresh A) where
  notStarted _ := ⟨rfl, rfl, rfl⟩
  running := by simp [Rt60Worker.fresh]
  newest _ h := nomatch h
  uncut _ _ h := nomatch h
  pending _ h := nomatch h
  inHand _ _ h := nomatch h
  done _ h := nomatch h
  waiting h := nomatch h

theorem submit_thread_job (w : Rt60Worker A) (request r : Rt60Request Ir) (pc : JobPc A) :
    (w.submit request).thread = .job r pc ↔ w.thread = .job r pc := by
  rw [Rt60Worker.submit]
  cases w.thread <;> simp

namespace WorkerInv

variable {w : Rt60Worker A}

section

variable (h : WorkerInv w)

include h

theorem submit (request : Rt60Request Ir) : WorkerInv (w.submit request) where
  notStarted hnone := by
    rw [Rt60Worker.submit] at hnone
    dsimp only at hnone
    split at hnone
    · cases hnone
    · contradiction
  running := by
    simp only [submit_thread_job]
    exact h.running
  newest r hr := by
    cases hr
    rfl
  uncut r pc hjob hcancel := by
    rw [submit_thread_job] at hjob
    have hrunning : w.running = true := h.running.mpr ⟨r, pc, hjob⟩
    simp [Rt60Worker.submit, hrunning] at hcancel
  pending r hr := ⟨hr, rfl, rfl⟩
  inHand _ _ _ hnone := nomatch hnone
  done _ hdone := nomatch hdone
  waiting _ hnone := nomatch hnone

theorem poll : WorkerInv w.poll.2 where
  notStarted hnone := ⟨(h.notStarted hnone).1, rfl, (h.notStarted hnone).2.2⟩
  running := h.running
  newest := h.newest
  uncut := h.uncut
  pending r hr := by
    obtain ⟨hasked, hanswered, hdone⟩ := h.pending r hr
    exact ⟨hasked, by simp [Rt60Worker.poll, hanswered, hdone], rfl⟩
  inHand r pc hjob hnone hstop := by
    obtain ⟨hcancel, hasked, hanswered, hdone⟩ := h.inHand r pc hjob hnone hstop
    exact ⟨hcancel, hasked, by simp [Rt60Worker.poll, hanswered, hdone], rfl⟩
  done _ hdone := nomatch hdone
  waiting hthread hnone hstop := by
    obtain ⟨r, hasked, hanswered | hdone⟩ := h.waiting hthread hnone hstop
    · exact ⟨r, hasked, .inl (by simp [Rt60Worker.poll, hanswered])⟩
    · exact ⟨r, hasked, .inl (by simp [Rt60Worker.poll, hdone])⟩

theorem destroy : WorkerInv w.destroy where
  notStarted := h.notStarted
  running := h.running
  newest := h.newest
  uncut _ _ _ hcancel := nomatch hcancel
  pending := h.pending
  inHand _ _ _ _ hstop := nomatch hstop
  done := h.done
  waiting _ _ hstop := nomatch hstop

variable {request : Rt60Request Ir}

theorem take (hpending : w.pending = some request) :
    WorkerInv (w.take request) where
  notStarted hnone := nomatch hnone
  running := ⟨fun _ => ⟨request, .begin, rfl⟩, fun _ => rfl⟩
  newest := h.newest
  uncut r pc hjob _ := by
    cases hjob
    rfl
  pending _ hsome := nomatch hsome
  inHand r pc hjob _ _ := by
    cases hjob
    obtain ⟨hasked, hanswered, hdone⟩ := h.pending request hpending
    exact ⟨rfl, hasked, hanswered, hdone⟩
  done := h.done
  waiting hthread := nomatch hthread

/-- A step of the job: where the flag is clear it does not change what the job comes to. -/
theorem job {pc : JobPc A} (hthread : w.thread = .job request pc) :
    WorkerInv { w with thread := .job request (pc.step request w.cancel) } where
  notStarted hnone := nomatch hnone
  running := ⟨fun _ => ⟨request, _, rfl⟩, fun _ => h.running.mpr ⟨request, pc, hthread⟩⟩
  newest := h.newest
  uncut r pc' hjob hcancel := by
    cases hjob
    dsimp only at hcancel
    rw [hcancel, pc.finishes_step]
    exact h.uncut request pc hthread hcancel
  pending := h.pending
  inHand r pc' hjob hnone hstop := by
    cases hjob
    exact h.inHand request pc hthread hnone hstop
  done := h.done
  waiting hwaiting := nomatch hwaiting

/-- Publishing: an outcome that nothing has superseded is that of the request submitted last, and
complete, for the flag is still clear. -/
theorem publish {primary : Option Single}
    {across : Option Ensemble} (hthread : w.thread = .job request (.finished primary across)) :
    WorkerInv (w.publish ⟨request.ticket, primary, across⟩) := by
  by_cases hlast : w.stop = false ∧ w.pending = none
  · obtain ⟨hcancel, hasked, hanswered, -⟩ := h.inHand _ _ hthread hlast.2 hlast.1
    have houtcome := h.uncut _ _ hthread hcancel
    have hpublished : w.publish ⟨request.ticket, primary, across⟩ =
        { w with running := false, done := some (A.outcome request), thread := .waiting } := by
      rw [Rt60Worker.publish, if_pos ⟨hlast.1, hlast.2, hcancel, (h.newest _ hasked).symm⟩]
      exact congrArg (fun o => { w with running := false, done := some o, thread := .waiting })
        houtcome
    rw [hpublished]
    exact
      { notStarted := nofun
        running := by simp
        newest := h.newest
        uncut := nofun
        pending := fun r hr => absurd (hlast.2.symm.trans hr) (by simp)
        inHand := nofun
        done := fun o ho => ⟨request, hasked, (Option.some.inj ho).symm, hanswered⟩
        waiting := fun _ _ _ => ⟨request, hasked, .inr rfl⟩ }
  · have hdropped : w.publish ⟨request.ticket, primary, across⟩ =
        { w with running := false, thread := .waiting } := by
      rw [Rt60Worker.publish, if_neg fun hall => hlast ⟨hall.1, hall.2.1⟩]
    rw [hdropped]
    exact
      { notStarted := nofun
        running := by simp
        newest := h.newest
        uncut := nofun
        pending := h.pending
        inHand := nofun
        done := h.done
        waiting := fun _ hnone hstop => absurd ⟨hstop, hnone⟩ hlast }

theorem exit (hwaiting : w.thread = .waiting) (hstop : w.stop = true) :
    WorkerInv ({ w with thread := .exited } : Rt60Worker A) where
  notStarted := nofun
  running := by
    refine ⟨fun hrunning => ?_, nofun⟩
    obtain ⟨r, pc, hjob⟩ := h.running.mp hrunning
    rw [hwaiting] at hjob
    cases hjob
  newest := h.newest
  uncut := nofun
  pending := h.pending
  inHand := nofun
  done := h.done
  waiting := nofun

theorem threadStep {w' : Rt60Worker A} (hstep : w.threadStep = some w') :
    WorkerInv w' := by
  rw [Rt60Worker.threadStep] at hstep
  cases hthread : w.thread with
  | none => rw [hthread] at hstep; cases hstep
  | exited => rw [hthread] at hstep; cases hstep
  | waiting =>
    rw [hthread] at hstep
    dsimp only at hstep
    split at hstep
    · rename_i hstop
      cases hstep
      exact h.exit hthread hstop
    · obtain ⟨request, hpending, rfl⟩ := Option.map_eq_some_iff.mp hstep
      exact h.take hpending
  | job request pc =>
    rw [hthread] at hstep
    cases pc with
    | finished primary across =>
      cases hstep
      exact h.publish hthread
    | begin =>
      cases hstep
      exact h.job hthread
    | single l =>
      cases hstep
      exact h.job hthread
    | between primary =>
      cases hstep
      exact h.job hthread
    | ensemble primary l =>
      cases hstep
      exact h.job hthread

theorem step {a : WorkerAct Ir} {w' : Rt60Worker A}
    (hstep : (workerRuns A).step w a = some w') : WorkerInv w' := by
  cases a with
  | submit request =>
    simp only [workerRuns] at hstep
    split at hstep
    · cases hstep
    · cases hstep
      exact h.submit request
  | poll =>
    simp only [workerRuns] at hstep
    split at hstep
    · cases hstep
    · cases hstep
      exact h.poll
  | thread => exact h.threadStep hstep
  | destroy =>
    cases hstep
    exact h.destroy

end

end WorkerInv

/-! ### What is delivered -/

/-- What a poll delivers is the complete analysis of the request submitted last, and nothing was
delivered for that one before. -/
def DeliversNewest (w : Rt60Worker A) (a : WorkerAct Ir) (_ : Rt60Worker A) : Prop :=
  match a with
  | .poll => ∀ outcome, w.poll.1 = some outcome →
      ∃ request, w.asked = some request ∧ outcome = A.outcome request ∧ w.answered = false
  | _ => True

/-- A thread that waits with nothing pending, outside a destructor: the outcome of the request
submitted last has been delivered or is there to be. -/
def WaitingAnswered (w : Rt60Worker A) : Prop :=
  w.thread = .waiting → w.pending = none → w.stop = false →
    ∃ request, w.asked = some request ∧ (w.answered = true ∨ w.done = some (A.outcome request))

theorem WorkerInv.deliversNewest {w : Rt60Worker A} (h : WorkerInv w) (a : WorkerAct Ir)
    (w' : Rt60Worker A) : DeliversNewest w a w' := by
  cases a with
  | poll => exact h.done
  | submit request => exact trivial
  | thread => exact trivial
  | destroy => exact trivial

/-- Every run of a worker, whatever is submitted and however the calls and the thread interleave. -/
theorem workerRuns_answers {w : Rt60Worker A} (hw : (workerRuns A).init w)
    (acts : List (WorkerAct Ir)) :
    (workerRuns A).AlongSteps (fun w a w' => DeliversNewest w a w' ∧ WaitingAnswered w') w acts := by
  refine Machine.AlongSteps.of_preserved WorkerInv (fun w a w' h hstep => ?_) ?_ acts
  · exact ⟨h.step hstep, h.deliversNewest a w', (h.step hstep).waiting⟩
  · rw [show w = .fresh A from hw]
    exact workerInv_fresh

end RtaTool
