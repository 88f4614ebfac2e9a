import Mathlib.Algebra.Ring.Nat
import RtaTool.Measure.Rt60Worker
import RtaTool.Trace.Trace

/-!
# The RT60 pane

`MainComponentRt60.cpp`: what the pane shows for the selected trace, the band set and the ticked
ensemble. One trace in octaves is analysed on the message thread; anything larger goes to the
worker and the pane says it is analysing until a poll takes the answer. The synchronous path leaves
whatever the worker is doing alone, so an old job may still finish afterwards.

The store of impulse responses is the sweep's. It changes under the pane, which drops ticked ids
that have gone from it.

## Main definitions

* `Rt60Key` -- what an answer is for; `paneRequest` -- the request made for it
* `Rt60Pane`, `reanalyse`, `select`, `setBandSet`, `toggleEnsemble`, `clearEnsemble`, `poll`,
  `refresh`, `paneRuns`
* `ShowsCurrent` -- a worker's answer on show is the complete one for the current key

## Main results

* `PaneInv.step`
* `rt60_answers` -- **Headline.** What the worker delivers, in every run of its callers and its
  thread, and what the pane shows, in every run of its own
-/

namespace RtaTool

/-- What the pane is asked to show: a trace, a band set and the ticked traces. -/
structure Rt60Key where
  selectedId : Bytes
  bandSet : Rt60BandSet
  ensembleIds : List Bytes
  deriving DecidableEq

/-- `kRt60MaxEnsembleCaptures`. -/
def kRt60MaxEnsembleCaptures : ℕ := 8

variable {Ir Single Ensemble : Type} (A : Rt60Analyses Ir Single Ensemble)

/-- The impulse response of the selected trace, if it is in memory. -/
def Rt60Key.primary (key : Rt60Key) (find : Bytes → Option Ir) : Option Ir :=
  if key.selectedId = [] then none else find key.selectedId

/-- The ticked traces whose impulse responses are in memory. -/
def Rt60Key.pruned (key : Rt60Key) (find : Bytes → Option Ir) : Rt60Key :=
  { key with ensembleIds := key.ensembleIds.filter fun id => (find id).isSome }

/-- The request the pane makes. -/
def paneRequest (find : Bytes → Option Ir) (key : Rt60Key) (ticket : ℕ) : Rt60Request Ir where
  ticket := ticket
  set := key.bandSet
  primary := key.primary find
  ensemble := if 2 ≤ key.ensembleIds.length then key.ensembleIds.map find else []

/-- `MainComponentRt60`. The last two fields are history: the key and the store of the last request
made of the worker, and the outcome of the worker that is on show. -/
structure Rt60Pane where
  key : Rt60Key
  find : Bytes → Option Ir
  result : Option Single
  ensemble : Option Ensemble
  analysing : Bool
  ticket : ℕ
  revision : ℕ
  worker : Rt60Worker A
  asked : Option (Rt60Key × (Bytes → Option Ir))
  shown : Option (Rt60Outcome Single Ensemble)

/-- A pane when it is made. -/
def Rt60Pane.fresh (find : Bytes → Option Ir) : Rt60Pane A where
  key := ⟨[], .octave, []⟩
  find := find
  result := none
  ensemble := none
  analysing := false
  ticket := 0
  revision := 0
  worker := .fresh A
  asked := none
  shown := none

variable {A}

namespace Rt60Pane

/-- The analysis on the message thread. -/
def analyseHere (p : Rt60Pane A) : Rt60Pane A :=
  { p with
    result := some (A.single.analyse (p.key.primary p.find, p.key.bandSet))
    ensemble := none
    analysing := false
    shown := none }

/-- The analysis on the worker. A trace with no impulse response is refused at once. -/
def analyseThere (p : Rt60Pane A) : Rt60Pane A :=
  let ticket := (p.ticket + 1) % 2 ^ 64
  { p with
    ticket := ticket
    ensemble := none
    analysing := true
    result :=
      match p.key.primary p.find with
      | some _ => none
      | none =>
        if p.key.selectedId = [] then none
        else some (A.single.analyse (none, p.key.bandSet))
    worker := p.worker.submit (paneRequest p.find p.key ticket)
    asked := some (p.key, p.find)
    shown := none }

/-- `reanalyse()`. -/
def reanalyse (p : Rt60Pane A) : Rt60Pane A :=
  let p := { p with revision := p.revision + 1, key := p.key.pruned p.find }
  if p.key.bandSet = .octave ∧ ¬ 2 ≤ p.key.ensembleIds.length then p.analyseHere
  else p.analyseThere

/-- `select(traceId)`: once for each change of the selection. -/
def select (p : Rt60Pane A) (id : Bytes) : Rt60Pane A :=
  if id = p.key.selectedId ∧ (p.result.isSome ∨ p.analysing) then p
  else reanalyse { p with key := { p.key with selectedId := id } }

/-- `setBandSet(set)`. -/
def setBandSet (p : Rt60Pane A) (set : Rt60BandSet) : Rt60Pane A :=
  if set = p.key.bandSet then p else reanalyse { p with key := { p.key with bandSet := set } }

/-- `toggleEnsemble(traceId)`. -/
def toggleEnsemble (p : Rt60Pane A) (id : Bytes) : Bool × Rt60Pane A :=
  if id ∈ p.key.ensembleIds then
    (true, reanalyse { p with key := { p.key with ensembleIds := p.key.ensembleIds.erase id } })
  else if kRt60MaxEnsembleCaptures ≤ p.key.ensembleIds.length then (false, p)
  else if (p.find id).isNone then (false, p)
  else
    (true, reanalyse { p with key := { p.key with ensembleIds := p.key.ensembleIds ++ [id] } })

/-- `clearEnsemble()`. -/
def clearEnsemble (p : Rt60Pane A) : Rt60Pane A :=
  if p.key.ensembleIds = [] then p
  else reanalyse { p with key := { p.key with ensembleIds := [] } }

/-- `poll()`. -/
def poll (p : Rt60Pane A) : Rt60Pane A :=
  if p.analysing = false then p
  else
    match p.worker.poll with
    | (none, worker) => { p with worker := worker }
    | (some outcome, worker) =>
      if outcome.ticket ≠ p.ticket then { p with worker := worker }
      else
        { p with
          result := outcome.single.or p.result
          ensemble := outcome.ensemble
          analysing := false
          revision := p.revision + 1
          worker := worker
          shown := some outcome }

/-- What asking for the revision does: a poll, and a new analysis if a ticked trace has gone. -/
def refresh (p : Rt60Pane A) : Rt60Pane A :=
  let p := p.poll
  if (p.key.pruned p.find).ensembleIds.length = p.key.ensembleIds.length then p
  else reanalyse { p with key := p.key.pruned p.find }

end Rt60Pane

/-- What happens to a pane: its controls, its timer, a change of the store, and a step of the
worker's thread. -/
inductive PaneAct (Ir : Type)
  | select (id : Bytes)
  | setBandSet (set : Rt60BandSet)
  | toggleEnsemble (id : Bytes)
  | clearEnsemble
  | poll
  | refresh
  | store (find : Bytes → Option Ir)
  | thread

variable (A)

/-- The runs of a pane and its worker. -/
def paneRuns : Machine (Rt60Pane A) (PaneAct Ir) where
  init p := p = .fresh A p.find
  step p
    | .select id => some (p.select id)
    | .setBandSet set => some (p.setBandSet set)
    | .toggleEnsemble id => some (p.toggleEnsemble id).2
    | .clearEnsemble => some p.clearEnsemble
    | .poll => some p.poll
    | .refresh => some p.refresh
    | .store find => some { p with find := find }
    | .thread => p.worker.threadStep.map fun worker => { p with worker := worker }

variable {A}

/-! ### What is on show -/

/-- The outcome is the complete analysis of the request made for the current key. -/
def Rt60Pane.IsCurrent (p : Rt60Pane A) (outcome : Rt60Outcome Single Ensemble) : Prop :=
  ∃ find, p.asked = some (p.key, find) ∧ outcome = A.outcome (paneRequest find p.key p.ticket)

/-- A pane that is not analysing and shows an outcome of the worker shows the complete one for its
current selection, band set and ensemble; one that shows none shows no ensemble. -/
def ShowsCurrent (p : Rt60Pane A) : Prop :=
  p.analysing = false →
    (∀ outcome, p.shown = some outcome → p.IsCurrent outcome ∧ p.ensemble = outcome.ensemble ∧
      ∀ result, outcome.single = some result → p.result = some result) ∧
    (p.shown = none → p.ensemble = none)

/-- What holds of a pane: while it is analysing the worker was last asked for its current key, and
what it shows of the worker is for that key. -/
structure PaneInv (p : Rt60Pane A) : Prop where
  worker : WorkerInv p.worker
  asking : p.analysing = true → p.shown = none ∧
    ∃ find, p.asked = some (p.key, find) ∧
      p.worker.asked = some (paneRequest find p.key p.ticket)
  shows : ShowsCurrent p

theorem paneInv_fresh (find : Bytes → Option Ir) : PaneInv (.fresh A find) where
  worker := workerInv_fresh
  asking := nofun
  shows _ := ⟨nofun, fun _ => rfl⟩

namespace PaneInv

variable {p : Rt60Pane A}

/-- Every new analysis starts with nothing of the worker on show, whatever the key was before. -/
theorem reanalyse (h : WorkerInv p.worker) : PaneInv p.reanalyse := by
  rw [Rt60Pane.reanalyse]
  dsimp only
  split
  · exact
      { worker := h
        asking := nofun
        shows := fun _ => ⟨nofun, fun _ => rfl⟩ }
  · exact
      { worker := h.submit _
        asking := fun _ => ⟨rfl, _, rfl, rfl⟩
        shows := nofun }

section

variable (h : PaneInv p)

include h

theorem select (id : Bytes) : PaneInv (p.select id) := by
  rw [Rt60Pane.select]
  split
  · exact h
  · exact reanalyse h.worker

theorem setBandSet (set : Rt60BandSet) : PaneInv (p.setBandSet set) := by
  rw [Rt60Pane.setBandSet]
  split
  · exact h
  · exact reanalyse h.worker

theorem toggleEnsemble (id : Bytes) : PaneInv (p.toggleEnsemble id).2 := by
  rw [Rt60Pane.toggleEnsemble]
  split
  · exact reanalyse h.worker
  · split
    · exact h
    · split
      · exact h
      · exact reanalyse h.worker

theorem clearEnsemble : PaneInv p.clearEnsemble := by
  rw [Rt60Pane.clearEnsemble]
  split
  · exact h
  · exact reanalyse h.worker

/-- A poll that takes an answer takes that of the request last made, which is the current one. -/
theorem poll : PaneInv p.poll := by
  rw [Rt60Pane.poll]
  split
  · exact h
  · rename_i hanalysing
    rw [Bool.not_eq_false] at hanalysing
    obtain ⟨hshown, find, hasked, hrequest⟩ := h.asking hanalysing
    have hworker := h.worker.poll
    split
    · rename_i worker hpoll
      rw [hpoll] at hworker
      have hkept : worker.asked = p.worker.asked := (congrArg (fun r => r.2.asked) hpoll).symm
      exact
        { worker := hworker
          asking := fun _ => ⟨hshown, find, hasked, hkept.trans hrequest⟩
          shows := fun hidle => absurd (hidle.symm.trans hanalysing) (by decide) }
    · rename_i outcome worker hpoll
      rw [hpoll] at hworker
      have hkept : worker.asked = p.worker.asked := (congrArg (fun r => r.2.asked) hpoll).symm
      split
      · exact
          { worker := hworker
            asking := fun _ => ⟨hshown, find, hasked, hkept.trans hrequest⟩
            shows := fun hidle => absurd (hidle.symm.trans hanalysing) (by decide) }
      · obtain ⟨request, hlast, houtcome, -⟩ := h.worker.done outcome (congrArg Prod.fst hpoll)
        rw [hrequest, Option.some.injEq] at hlast
        refine { worker := hworker, asking := nofun, shows := fun _ => ⟨?_, nofun⟩ }
        rintro o ho
        cases ho
        refine ⟨⟨find, hasked, hlast ▸ houtcome⟩, rfl, fun result hresult => ?_⟩
        dsimp only
        rw [hresult, Option.some_or]

theorem refresh : PaneInv p.refresh := by
  rw [Rt60Pane.refresh]
  split
  · exact h.poll
  · exact reanalyse h.poll.worker

theorem thread {worker : Rt60Worker A} (hstep : p.worker.threadStep = some worker) :
    PaneInv { p with worker := worker } where
  worker := h.worker.threadStep hstep
  asking hanalysing := by
    obtain ⟨hshown, find, hasked, hrequest⟩ := h.asking hanalysing
    exact ⟨hshown, find, hasked, (Rt60Worker.threadStep_asked hstep).trans hrequest⟩
  shows := h.shows

theorem step {a : PaneAct Ir} {p' : Rt60Pane A}
    (hstep : (paneRuns A).step p a = some p') : PaneInv p' := by
  cases a with
  | select id =>
    cases hstep
    exact h.select id
  | setBandSet set =>
    cases hstep
    exact h.setBandSet set
  | toggleEnsemble id =>
    cases hstep
    exact h.toggleEnsemble id
  | clearEnsemble =>
    cases hstep
    exact h.clearEnsemble
  | poll =>
    cases hstep
    exact h.poll
  | refresh =>
    cases hstep
    exact h.refresh
  | store find =>
    cases hstep
    exact ⟨h.worker, h.asking, h.shows⟩
  | thread =>
    obtain ⟨worker, hworker, rfl⟩ := Option.map_eq_some_iff.mp hstep
    exact h.thread hworker

end

end PaneInv

/-- **Headline.** In every run of a worker, whatever is submitted and however the calls and the
thread's steps interleave, a poll delivers the complete analysis of the request submitted last and
delivers it once, and a thread that waits with nothing pending has that one delivered or there to
be. In every run of a pane over a worker, a pane that is not analysing shows of the worker only the
complete answer for its current selection, band set and ensemble. -/
theorem rt60_answers (A : Rt60Analyses Ir Single Ensemble) :
    (∀ (w : Rt60Worker A) (acts : List (WorkerAct Ir)), (workerRuns A).init w →
      (workerRuns A).AlongSteps (fun w a w' => DeliversNewest w a w' ∧ WaitingAnswered w') w acts) ∧
    ∀ (p : Rt60Pane A) (acts : List (PaneAct Ir)), (paneRuns A).init p →
      (paneRuns A).AlongSteps (fun _ _ p' => ShowsCurrent p') p acts := by
  refine ⟨fun w acts hw => workerRuns_answers hw acts, fun p acts hp => ?_⟩
  refine Machine.AlongSteps.of_preserved PaneInv (fun p a p' h hstep => ?_) ?_ acts
  · exact ⟨h.step hstep, (h.step hstep).shows⟩
  · rw [show p = .fresh A p.find from hp]
    exact paneInv_fresh _

/-- Analyses that add up the bands, with two bands to a third-octave set. -/
def summing : Rt60Analyses ℕ ℕ ℕ where
  single :=
    { Head := ℕ
      Edges := ℕ
      Band := ℕ
      head := fun (ir, _) => ir.elim (.error 0) .ok
      edges := fun (_, set) => if set = .octave then [1] else [1, 2]
      band := fun ir edges => .ok (ir * edges)
      result := fun _ bands => bands.sum
      failed := fun _ _ => 0 }
  ensemble :=
    { Head := ℕ
      Edges := ℕ
      Band := ℕ
      head := fun (irs, _) => .ok (irs.reduceOption.sum)
      edges := fun (_, set) => if set = .octave then [1] else [1, 2]
      band := fun irs edges => .ok (irs * edges)
      result := fun _ bands => bands.sum
      failed := fun _ _ => 0 }

/-- A third-octave analysis of trace `a` is under way when trace `b` is picked: the answer for `b`
is shown, and the one for `a` never. -/
def pickedAgain : List (PaneAct ℕ) :=
  [.setBandSet .third, .select [97], .thread, .thread, .thread, .select [98], .thread, .thread,
    .thread, .refresh, .thread, .thread, .thread, .thread, .thread, .thread, .thread, .refresh]

theorem rt60_answers_pickedAgain :
    (paneRuns summing).AlongSteps (fun _ _ p => ShowsCurrent p)
        (.fresh summing fun id => some (id.headD 0).toNat) pickedAgain ∧
      ((paneRuns summing).exec (.fresh summing fun id => some (id.headD 0).toNat) pickedAgain).map
        (fun p => (p.analysing, p.result, p.key.selectedId)) = some (false, some 294, [98]) :=
  ⟨(rt60_answers summing).2 _ pickedAgain rfl, by decide⟩

end RtaTool
