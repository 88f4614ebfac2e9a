import RtaTool.Export.SplLogPipeline

/-!
# Every block is in the log or counted as dropped

At any moment what a channel's writer was handed, what the writer thread has taken and not yet
written and what is in the queue are together the pushes the queue took, in their order. That is the
ledger, and it is kept by both threads. What makes it an account when `disable` returns is the final
pass: it begins after the flag is clear, so nothing is pushed any more, and what it leaves behind it
stays empty until the sinks are let go of.

## Main definitions

* `LogPipeline.Accounted` -- the property
* `SinkInv`, `ClosedInv`, `SilentInv` -- an index with a sink, after it, and one not logged
* `PipelineInv` -- the invariant

## Main results

* `PipelineInv.callerStep`, `PipelineInv.writerStep` -- what one step keeps
* `log_accounted` -- the property in every reachable state
-/

namespace RtaTool

variable {Info Block : Type}

/-! ### The property -/

/-- The pushes the queue took. -/
def takenOf (pushed : List (Block × Bool)) : List Block := (pushed.filter (·.2)).map (·.1)

/-- The pushes it refused. -/
def refusedOf (pushed : List (Block × Bool)) : List Block := (pushed.filter (!·.2)).map (·.1)

/-- The writer of an index, open or let go of. -/
def LogSlot.lastWriter (x : LogSlot Info Block) : Option (LogWriter Info Block) :=
  match x.sink with
  | none => x.closed
  | some sink => sink.writer

namespace LogPipeline

/-- When `disable` has returned the log holds what was pushed, less what is counted as dropped. At
any time a writer has only blocks of its own session, and the count and the flag are the session's
own. Neither thread ever reaches for a sink or a writer that is not there. -/
structure Accounted (s : LogPipeline Info Block) : Prop where
  returned : s.caller = .idle → s.running = false → ∀ channel i, loggedSlot channel = some i →
    (s.slots i).logged = true → ∃ w, (s.slots i).lastWriter = some w ∧
      w.blocks = takenOf (s.slots i).pushed ∧ s.writeFailed channel = (s.slots i).failed
  handed : ∀ channel i w, loggedSlot channel = some i → (s.slots i).lastWriter = some w →
    w.blocks <+: takenOf (s.slots i).pushed
  dropped : s.caller = .idle → ∀ channel i, loggedSlot channel = some i →
    s.droppedBlocks channel =
      if (s.slots i).logged then (refusedOf (s.slots i).pushed).length else 0
  failure : ∀ channel i, loggedSlot channel = some i → s.writeFailed channel = true →
    (s.slots i).failed = true
  sound : (s.writer ≠ .absent → s.writer ≠ .finished → ∀ failed, s.writerStep failed ≠ none) ∧
    ∀ i, s.caller = .counting i → s.callerStep ≠ none

end LogPipeline

theorem takenOf_concat (pushed : List (Block × Bool)) (block : Block) (taken : Bool) :
    takenOf (pushed ++ [(block, taken)]) =
      takenOf pushed ++ if taken then [block] else [] := by
  cases taken <;> simp [takenOf]

theorem length_refusedOf_concat (pushed : List (Block × Bool)) (block : Block) (taken : Bool) :
    (refusedOf (pushed ++ [(block, taken)])).length =
      (refusedOf pushed).length + if taken then 0 else 1 := by
  cases taken <;> simp [refusedOf]

theorem loggedSlot_lt {channel : ℤ} {i : ℕ} (h : loggedSlot channel = some i) :
    i < kMaxLoggedChannels := by
  rw [loggedSlot] at h
  split at h
  · obtain rfl := Option.some.inj h
    simp only [kMaxLoggedChannels] at *
    omega
  · cases h

/-! ### Where the threads stand -/

namespace LogWriterPc

/-- The block taken from an index and not yet written. -/
def inFlight (pc : LogWriterPc Info Block) (i : ℕ) : List Block :=
  match pc with
  | .writing _ j block => if j = i then [block] else []
  | _ => []

/-- The index has been let go of. -/
def Closed (pc : LogWriterPc Info Block) (i : ℕ) : Prop :=
  match pc with
  | .absent | .finished => True
  | .tearingDown j => i < j
  | _ => False

/-- The final pass has left the index behind. -/
def Drained (pc : LogWriterPc Info Block) (i : ℕ) : Prop :=
  match pc with
  | .reading true j | .writing true j _ | .checking true j => i < j
  | .absent | .finished | .tearingDown _ => True
  | _ => False

/-- The final pass has just found the queue of the index empty. -/
def Found (pc : LogWriterPc Info Block) (i : ℕ) : Prop :=
  match pc with
  | .checking true j => j = i
  | _ => False

/-- No block is written before the writers are open. -/
def SettingUp (pc : LogWriterPc Info Block) : Prop :=
  match pc with
  | .settingUp _ => True
  | _ => False

/-- The writer of the index is still to be opened. -/
def ToOpen (pc : LogWriterPc Info Block) (i : ℕ) : Prop :=
  match pc with
  | .settingUp todo => ∃ spec ∈ todo, loggedSlot spec.channel = some i
  | _ => False

/-- The loop is under way and the final pass has not begun. -/
def Live (pc : LogWriterPc Info Block) : Prop :=
  match pc with
  | .settingUp _ | .polling | .reading false _ | .writing false _ _ | .checking false _ => True
  | _ => False

/-- The index whose sink the thread is about to use. -/
def busyAt (pc : LogWriterPc Info Block) : Option ℕ :=
  match pc with
  | .writing _ i _ | .checking _ i => some i
  | _ => none

variable {pc : LogWriterPc Info Block}

theorem Live.not_closed (h : pc.Live) (i : ℕ) : ¬ pc.Closed i := by
  cases pc <;> simp_all [Live, Closed]

theorem Live.not_drained (h : pc.Live) (i : ℕ) : ¬ pc.Drained i := by
  cases pc with
  | reading final j | writing final j _ | checking final j => cases final <;> simp_all [Live, Drained]
  | _ => simp_all [Live, Drained]

theorem Live.not_found (h : pc.Live) (i : ℕ) : ¬ pc.Found i := by
  cases pc with
  | checking final j => cases final <;> simp_all [Live, Found]
  | _ => exact id

theorem Live.ne_absent (h : pc.Live) : pc ≠ .absent := by
  rintro rfl
  exact h

/-- What a move of the writer thread leaves as it is at an index. -/
structure Keeps (pc pc' : LogWriterPc Info Block) (i : ℕ) : Prop where
  inFlight_eq : pc'.inFlight i = pc.inFlight i
  closed_iff : pc'.Closed i ↔ pc.Closed i
  toOpen : pc.ToOpen i → pc'.ToOpen i
  settingUp : pc'.SettingUp → pc.SettingUp
  drained : pc'.Drained i → pc.Drained i
  found : pc'.Found i → pc.Found i

theorem Keeps.refl (pc : LogWriterPc Info Block) (i : ℕ) : pc.Keeps pc i :=
  ⟨rfl, Iff.rfl, id, id, id, id⟩

end LogWriterPc

/-- A refusal that is not yet counted. -/
def LogCallerPc.uncounted (pc : LogCallerPc Info) (i : ℕ) : ℕ :=
  match pc with
  | .counting j => if j = i then 1 else 0
  | _ => 0

/-! ### The invariant -/

/-- The blocks a sink's writer was handed. -/
def ChannelSink.handed (sink : ChannelSink Info Block) : List Block :=
  (sink.writer.map (·.blocks)).getD []

/-- An index with a sink. -/
structure SinkInv (caller : LogCallerPc Info) (pc : LogWriterPc Info Block) (i : ℕ)
    (x : LogSlot Info Block) (sink : ChannelSink Info Block) : Prop where
  ledger : sink.handed ++ pc.inFlight i ++ sink.ring.items = takenOf x.pushed
  dropped : sink.dropped + caller.uncounted i = (refusedOf x.pushed).length
  failed_of_flag : sink.writeFailed = true → x.failed = true
  failed_of_writer : ∀ w, sink.writer = some w → w.writeFailed = true → x.failed = true
  flag_or_writer : x.failed = true →
    sink.writeFailed = true ∨ ∃ w, sink.writer = some w ∧ w.writeFailed = true
  toOpen : sink.writer = none → pc.ToOpen i
  unwritten : pc.SettingUp → sink.handed = [] ∧ (x.failed = true → sink.writeFailed = true)
  drained : pc.Drained i → sink.ring.items = [] ∧ sink.writeFailed = x.failed
  found : pc.Found i → sink.ring.items = []

/-- A logged index whose sink has been let go of. -/
structure ClosedInv (x : LogSlot Info Block) : Prop where
  sink_eq : x.sink = none
  blocks_eq : ∃ w, x.closed = some w ∧ w.blocks = takenOf x.pushed
  dropped : x.lastDropped = (refusedOf x.pushed).length
  failed : x.lastWriteFailed = x.failed

/-- An index the session does not log. -/
structure SilentInv (x : LogSlot Info Block) : Prop where
  sink_eq : x.sink = none
  closed_eq : x.closed = none
  dropped : x.lastDropped = 0
  failed : x.lastWriteFailed = false

/-- An index is in one of the three states. -/
inductive SlotInv (caller : LogCallerPc Info) (pc : LogWriterPc Info Block) (i : ℕ)
    (x : LogSlot Info Block) : Prop
  | silent (hlogged : x.logged = false) (h : SilentInv x)
  | closed (hlogged : x.logged = true) (hclosed : pc.Closed i) (h : ClosedInv x)
  | sink (hlogged : x.logged = true) (hclosed : ¬ pc.Closed i) (sink : ChannelSink Info Block)
      (hsink : x.sink = some sink) (h : SinkInv caller pc i x sink)

/-- Who is where: between calls the writer thread is live or there is none, and from the clearing
of the flag until the join nobody pushes. -/
def PhaseInv (running : Bool) (caller : LogCallerPc Info) (pc : LogWriterPc Info Block) : Prop :=
  match caller with
  | .idle | .disabling _ => (running = true ∧ pc.Live) ∨ (running = false ∧ pc = .absent)
  | .counting _ => running = true ∧ pc.Live
  | .joining _ => running = false ∧ pc ≠ .absent
  | .enabling _ => running = false ∧ pc = .absent

/-- What holds between any two steps. -/
structure PipelineInv (s : LogPipeline Info Block) : Prop where
  phase : PhaseInv s.running s.caller s.writer
  slot : ∀ i < kMaxLoggedChannels, SlotInv s.caller s.writer i (s.slots i)
  busy : ∀ i, s.writer.busyAt = some i → i < kMaxLoggedChannels ∧ (s.slots i).sink ≠ none
  counting : ∀ i, s.caller = .counting i → i < kMaxLoggedChannels ∧ (s.slots i).sink ≠ none

namespace SlotInv

variable {caller caller' : LogCallerPc Info} {pc pc' : LogWriterPc Info Block} {i : ℕ}
  {x : LogSlot Info Block}

theorem of_sink (h : SlotInv caller pc i x) {sink : ChannelSink Info Block}
    (hsink : x.sink = some sink) :
    x.logged = true ∧ ¬ pc.Closed i ∧ SinkInv caller pc i x sink := by
  cases h with
  | silent _ h => exact absurd (h.sink_eq.symm.trans hsink) nofun
  | closed _ _ h => exact absurd (h.sink_eq.symm.trans hsink) nofun
  | sink hlogged hclosed sink' hsink' h =>
    obtain rfl := Option.some.inj (hsink'.symm.trans hsink)
    exact ⟨hlogged, hclosed, h⟩

/-- The threads move, and leave the index as it is. -/
theorem move (h : SlotInv caller pc i x) (hcaller : caller'.uncounted i = caller.uncounted i)
    (hpc : pc.Keeps pc' i) : SlotInv caller' pc' i x := by
  cases h with
  | silent hlogged h => exact .silent hlogged h
  | closed hlogged hclosed h => exact .closed hlogged (hpc.closed_iff.mpr hclosed) h
  | sink hlogged hclosed sink hsink h =>
    refine .sink hlogged (mt hpc.closed_iff.mp hclosed) sink hsink ?_
    exact
      { h with
        ledger := by rw [hpc.inFlight_eq]; exact h.ledger
        dropped := by rw [hcaller]; exact h.dropped
        toOpen := fun hnone => hpc.toOpen (h.toOpen hnone)
        unwritten := fun hset => h.unwritten (hpc.settingUp hset)
        drained := fun hdrained => h.drained (hpc.drained hdrained)
        found := fun hfound => h.found (hpc.found hfound) }

/-- The writer thread moves over an index that has no sink. -/
theorem move_of_none (h : SlotInv caller pc i x) (hsink : x.sink = none)
    (hclosed : pc'.Closed i ↔ pc.Closed i) : SlotInv caller' pc' i x := by
  cases h with
  | silent hlogged h => exact .silent hlogged h
  | closed hlogged h' h => exact .closed hlogged (hclosed.mpr h') h
  | sink _ _ sink hsink' _ => exact absurd (hsink'.symm.trans hsink) nofun

end SlotInv

/-! ### The calling thread -/

variable {sink : ChannelSink Info Block} {pc : LogWriterPc Info Block} {x : LogSlot Info Block}

theorem SinkInv.push {i : ℕ} (h : SinkInv .idle pc i x sink) (hlive : pc.Live)
    (block : Block) {taken : Bool} {ring : BoundedQueue Block}
    (hwrite : sink.ring.write [block] = (taken, ring)) :
    SinkInv (if taken then .idle else .counting i) pc i
      { x.note true (block, taken) with sink := some { sink with ring := ring } }
      { sink with ring := ring } where
  ledger := by
    have hitems : ring.items = if taken then sink.ring.items ++ [block] else sink.ring.items := by
      have := sink.ring.items_write [block]
      rwa [hwrite] at this
    show sink.handed ++ pc.inFlight i ++ ring.items = takenOf (x.pushed ++ [(block, taken)])
    rw [hitems, takenOf_concat, ← h.ledger]
    cases taken
    · rw [if_neg Bool.false_ne_true, if_neg Bool.false_ne_true, List.append_nil]
    · rw [if_pos rfl, if_pos rfl, List.append_assoc, List.append_assoc, List.append_assoc]
  dropped := by
    show sink.dropped + _ = (refusedOf (x.pushed ++ [(block, taken)])).length
    rw [length_refusedOf_concat, ← h.dropped]
    cases taken <;> simp [LogCallerPc.uncounted]
  failed_of_flag := h.failed_of_flag
  failed_of_writer := h.failed_of_writer
  flag_or_writer := h.flag_or_writer
  toOpen := h.toOpen
  unwritten := h.unwritten
  drained hdrained := absurd hdrained (hlive.not_drained i)
  found hfound := absurd hfound (hlive.not_found i)

theorem SinkInv.count {i : ℕ} (h : SinkInv (.counting i) pc i x sink) :
    SinkInv .idle pc i { x with sink := some { sink with dropped := sink.dropped + 1 } }
      { sink with dropped := sink.dropped + 1 } :=
  { h with
    dropped := by
      rw [← h.dropped]
      simp [LogCallerPc.uncounted] }

theorem SinkInv.begin {caller : LogCallerPc Info} (hcaller : ∀ i, caller.uncounted i = 0)
    {params : SplLogEnableParams Info} {i : ℕ} (hlogs : params.logs i = true)
    (x : LogSlot Info Block) (capacity : ℕ) :
    SinkInv caller (.settingUp params.channels) i (x.begin (some capacity))
      { ring := .empty capacity } where
  ledger := rfl
  dropped := (Nat.zero_add _).trans (hcaller i)
  failed_of_flag := nofun
  failed_of_writer := nofun
  flag_or_writer := nofun
  toOpen _ := by
    obtain ⟨spec, hspec, hi⟩ := List.any_eq_true.mp hlogs
    exact ⟨spec, hspec, of_decide_eq_true hi⟩
  unwritten _ := ⟨rfl, nofun⟩
  drained := nofun
  found := nofun

namespace PipelineInv

variable {s t : LogPipeline Info Block}

theorem start : PipelineInv ({} : LogPipeline Info Block) where
  phase := .inr ⟨rfl, rfl⟩
  slot _ _ := .silent rfl ⟨rfl, rfl, rfl, rfl⟩
  busy := nofun
  counting := nofun

section

variable (h : PipelineInv s)

include h

variable {i : ℕ} {pc : LogWriterPc Info Block} {caller : LogCallerPc Info}

/-- A step moves the threads and leaves every index as it is. -/
theorem move {running : Bool} (hphase : PhaseInv running caller pc)
    (hcaller : ∀ i, caller.uncounted i = s.caller.uncounted i)
    (hpc : ∀ i < kMaxLoggedChannels, s.writer.Keeps pc i)
    (hbusy : ∀ i, pc.busyAt = some i → i < kMaxLoggedChannels ∧ (s.slots i).sink ≠ none)
    (hcounting : ∀ i, caller = .counting i → s.caller = .counting i) :
    PipelineInv { slots := s.slots, running := running, caller := caller, writer := pc } where
  phase := hphase
  slot i hi := (h.slot i hi).move (hcaller i) (hpc i hi)
  busy := hbusy
  counting i hi := h.counting i (hcounting i hi)

/-- A step changes one index, and the threads' moves leave the others as they are. -/
theorem update {running : Bool} {x : LogSlot Info Block}
    (hphase : PhaseInv running caller pc) (hx : i < kMaxLoggedChannels → SlotInv caller pc i x)
    (hothers : ∀ j ≠ i, caller.uncounted j = s.caller.uncounted j ∧ s.writer.Keeps pc j)
    (hbusy : ∀ j, pc.busyAt = some j →
      (j ≠ i → s.writer.busyAt = some j) ∧ (j = i → i < kMaxLoggedChannels ∧ x.sink ≠ none))
    (hcounting : ∀ j, caller = .counting j →
      (j ≠ i → s.caller = .counting j) ∧ (j = i → i < kMaxLoggedChannels ∧ x.sink ≠ none)) :
    PipelineInv
      { slots := Function.update s.slots i x, running := running, caller := caller
        writer := pc } where
  phase := hphase
  slot j hj := by
    show SlotInv caller pc j (Function.update s.slots i x j)
    by_cases hij : j = i
    · subst hij
      rw [Function.update_self]
      exact hx hj
    · rw [Function.update_of_ne hij]
      exact (h.slot j hj).move (hothers j hij).1 (hothers j hij).2
  busy j hj := by
    obtain ⟨hne, heq⟩ := hbusy j hj
    show j < kMaxLoggedChannels ∧ (Function.update s.slots i x j).sink ≠ none
    by_cases hij : j = i
    · subst hij
      rw [Function.update_self]
      exact heq rfl
    · rw [Function.update_of_ne hij]
      exact h.busy j (hne hij)
  counting j hj := by
    obtain ⟨hne, heq⟩ := hcounting j hj
    show j < kMaxLoggedChannels ∧ (Function.update s.slots i x j).sink ≠ none
    by_cases hij : j = i
    · subst hij
      rw [Function.update_self]
      exact heq rfl
    · rw [Function.update_of_ne hij]
      exact h.counting j (hne hij)

theorem sink_eq_none (hwriter : s.writer = .absent)
    (hi : i < kMaxLoggedChannels) : (s.slots i).sink = none := by
  rcases h.slot i hi with ⟨_, h⟩ | ⟨_, _, h⟩ | ⟨_, hclosed, _, _, _⟩
  · exact h.sink_eq
  · exact h.sink_eq
  · rw [hwriter] at hclosed
    exact absurd trivial hclosed

/-- A sink is there only while the session runs. -/
theorem live_of_sink (hidle : s.caller = .idle)
    (hi : i < kMaxLoggedChannels) (hsink : (s.slots i).sink ≠ none) :
    s.running = true ∧ s.writer.Live := by
  have hphase := h.phase
  rw [hidle] at hphase
  rcases hphase with hlive | ⟨-, habsent⟩
  · exact hlive
  · exact absurd (h.sink_eq_none habsent hi) hsink

theorem push_none (hidle : s.caller = .idle)
    (hsink : (s.slots i).sink = none) (push : Block × Bool) :
    PipelineInv (s.setSlot i ((s.slots i).note s.running push)) := by
  refine h.update h.phase (fun hi => ?_) (fun j _ => ⟨rfl, .refl _ j⟩) (fun j hj => ?_) fun j hj =>
    absurd (hidle.symm.trans hj) nofun
  · rw [LogSlot.note]
    split
    · rename_i hrunning
      have hphase := h.phase
      rw [hidle, hrunning] at hphase
      have hlive : s.writer.Live := hphase.elim (·.2) fun h => absurd h.1 nofun
      rcases h.slot i hi with ⟨hlogged, hsilent⟩ | ⟨_, hclosed, _⟩ | ⟨_, _, sink, hsome, _⟩
      · exact .silent hlogged { hsilent with }
      · exact absurd hclosed (hlive.not_closed i)
      · exact absurd (hsome.symm.trans hsink) nofun
    · exact h.slot i hi
  · exact ⟨fun _ => hj, fun hji => absurd hsink (hji ▸ (h.busy j hj).2)⟩

theorem push_some (hidle : s.caller = .idle)
    (hi : i < kMaxLoggedChannels) {sink : ChannelSink Info Block}
    (hsink : (s.slots i).sink = some sink) (block : Block) {taken : Bool}
    {ring : BoundedQueue Block} (hwrite : sink.ring.write [block] = (taken, ring)) :
    PipelineInv
      { s.setSlot i { (s.slots i).note s.running (block, taken) with
          sink := some { sink with ring := ring } } with
        caller := if taken then .idle else .counting i } := by
  obtain ⟨hrunning, hlive⟩ := h.live_of_sink hidle hi (by rw [hsink]; exact nofun)
  obtain ⟨hlogged, hclosed, hinv⟩ := (h.slot i hi).of_sink hsink
  rw [hidle] at hinv
  refine h.update ?_ (fun _ => .sink ?_ hclosed _ rfl ?_) (fun j hj => ⟨?_, .refl _ j⟩)
    (fun j hj => ⟨fun _ => hj, fun _ => ⟨hi, nofun⟩⟩) fun j hj => ⟨fun hne => ?_, fun _ => ⟨hi, nofun⟩⟩
  · cases taken with
    | true => exact .inl ⟨hrunning, hlive⟩
    | false => exact ⟨hrunning, hlive⟩
  · rw [hrunning]
    exact hlogged
  · rw [hrunning]
    exact hinv.push hlive block hwrite
  · rw [hidle]
    cases taken with
    | true => rfl
    | false => exact if_neg fun hij => hj hij.symm
  · cases taken with
    | true => exact absurd hj nofun
    | false =>
      cases hj
      exact absurd rfl hne

theorem pushBlock (hidle : s.caller = .idle) (channel : ℤ) (block : Block) :
    PipelineInv (s.pushBlock channel block) := by
  simp only [LogPipeline.pushBlock]
  split
  · exact h
  · rename_i i hchannel
    split
    · rename_i hsink
      exact h.push_none hidle hsink _
    · rename_i sink hsink
      exact h.push_some hidle (loggedSlot_lt hchannel) hsink block rfl

/-- What is left of `enable` after `disable`: every index starts anew. -/
theorem finishEnable {params : SplLogEnableParams Info}
    (henabling : s.caller = .enabling params) : PipelineInv (s.finishEnable params) := by
  have hphase := h.phase
  rw [henabling] at hphase
  obtain ⟨hrunning, habsent⟩ := hphase
  have hnone : ∀ i < kMaxLoggedChannels, (s.slots i).sink = none :=
    fun i hi => h.sink_eq_none habsent hi
  have hsilent : ∀ i < kMaxLoggedChannels, SilentInv ((s.slots i).begin none) :=
    fun i hi => ⟨hnone i hi, rfl, rfl, rfl⟩
  simp only [LogPipeline.finishEnable]
  split
  · split
    · exact ⟨.inr ⟨hrunning, habsent⟩, fun i hi => .silent rfl (hsilent i hi), by
        rw [habsent]
        exact nofun, nofun⟩
    · exact ⟨.inl ⟨rfl, trivial⟩, fun i hi => .silent rfl (hsilent i hi), nofun, nofun⟩
  · rename_i capacity _
    refine ⟨.inl ⟨rfl, trivial⟩, fun i hi => ?_, nofun, nofun⟩
    by_cases hlogs : params.logs i = true
    · simp only [hlogs, if_true]
      exact .sink rfl id _ rfl (.begin (fun _ => rfl) hlogs _ capacity)
    · simp only [hlogs]
      exact .silent rfl (hsilent i hi)

theorem callerStep (hstep : s.callerStep = some t) : PipelineInv t := by
  have hphase := h.phase
  simp only [LogPipeline.callerStep] at hstep
  cases hcaller : s.caller with
  | idle =>
    simp only [hcaller] at hstep
    cases hstep
  | disabling next =>
    rw [hcaller] at hphase
    simp only [hcaller] at hstep
    split at hstep
    · rename_i hrunning
      obtain rfl := Option.some.inj hstep
      have hlive : s.writer.Live := hphase.elim (·.2) fun h => absurd (hrunning ▸ h.1) nofun
      exact h.move ⟨rfl, hlive.ne_absent⟩ (fun i => by rw [hcaller]; rfl) (fun i _ => .refl _ i)
        h.busy nofun
    · rename_i hrunning
      obtain rfl := Option.some.inj hstep
      obtain ⟨hstopped, habsent⟩ := hphase.resolve_left fun h => hrunning h.1
      refine h.move ?_ (fun i => ?_) (fun i _ => .refl _ i) h.busy ?_
      · cases next with
        | none => exact .inr ⟨hstopped, habsent⟩
        | some params => exact ⟨hstopped, habsent⟩
      · rw [hcaller]
        cases next <;> rfl
      · cases next <;> exact nofun
  | joining next =>
    rw [hcaller] at hphase
    simp only [hcaller] at hstep
    split at hstep
    · rename_i hfinished
      obtain rfl := Option.some.inj hstep
      refine h.move ?_ (fun i => ?_) (fun i => ?_) nofun ?_
      · cases next with
        | none => exact .inr ⟨hphase.1, rfl⟩
        | some params => exact ⟨hphase.1, rfl⟩
      · rw [hcaller]
        cases next <;> rfl
      · intro _
        rw [hfinished]
        exact ⟨rfl, Iff.rfl, id, id, id, id⟩
      · cases next <;> exact nofun
    · cases hstep
  | enabling params =>
    simp only [hcaller] at hstep
    obtain rfl := Option.some.inj hstep
    exact h.finishEnable hcaller
  | counting i =>
    rw [hcaller] at hphase
    simp only [hcaller] at hstep
    split at hstep
    · cases hstep
    · rename_i sink hsink
      obtain rfl := Option.some.inj hstep
      refine h.update (.inl hphase) (fun hi => ?_) (fun j hj => ⟨?_, .refl _ j⟩) (fun j hj =>
        ⟨fun _ => hj, fun hji => ⟨hji ▸ (h.busy j hj).1, nofun⟩⟩) nofun
      · obtain ⟨hlogged, hclosed, hinv⟩ := (h.slot i hi).of_sink hsink
        rw [hcaller] at hinv
        exact .sink hlogged hclosed _ rfl hinv.count
      · rw [hcaller]
        exact (if_neg fun hij => hj hij.symm).symm

theorem call {a : LogAct Info Block} (hstep : s.call a = some t) :
    PipelineInv t := by
  have hphase := h.phase
  simp only [LogPipeline.call] at hstep
  split at hstep
  · rename_i hidle
    obtain rfl := Option.some.inj hstep
    rw [hidle] at hphase
    exact h.move hphase (fun i => by rw [hidle]; rfl) (fun i _ => .refl _ i) h.busy nofun
  · rename_i hidle
    obtain rfl := Option.some.inj hstep
    exact h.pushBlock hidle _ _
  · rename_i hidle
    obtain rfl := Option.some.inj hstep
    rw [hidle] at hphase
    exact h.move hphase (fun i => by rw [hidle]; rfl) (fun i _ => .refl _ i) h.busy nofun
  · cases hstep

end

end PipelineInv

/-! ### The writer thread -/

theorem PhaseInv.writer {running : Bool} {caller : LogCallerPc Info}
    {pc pc' : LogWriterPc Info Block} (h : PhaseInv running caller pc) (hpc : pc ≠ .absent)
    (hlive : running = true → pc.Live → pc'.Live) (hpc' : pc' ≠ .absent) :
    PhaseInv running caller pc' := by
  cases caller with
  | idle | disabling next =>
    obtain ⟨hrunning, h⟩ := h.resolve_right fun h => hpc h.2
    exact .inl ⟨hrunning, hlive hrunning h⟩
  | counting i => exact ⟨h.1, hlive h.1 h.2⟩
  | joining next => exact ⟨h.1, hpc'⟩
  | enabling params => exact absurd h.2 hpc

namespace SinkInv

variable {caller : LogCallerPc Info} {i : ℕ} {x : LogSlot Info Block}
  {sink : ChannelSink Info Block}

/-- A writer is opened; one that was there before it has written nothing. -/
theorem openWriter {spec : SplLogChannelSpec Info} {todo : List (SplLogChannelSpec Info)}
    (h : SinkInv caller (.settingUp (spec :: todo)) i x sink) (failed : Bool) :
    SinkInv caller (.settingUp todo) i (x.openWriter sink spec failed)
      { sink with
        writer := some { spec := spec, writeFailed := failed }
        writeFailed := sink.writeFailed || failed } where
  ledger := by
    show [] ++ [] ++ sink.ring.items = takenOf x.pushed
    rw [← h.ledger, (h.unwritten trivial).1]
    rfl
  dropped := h.dropped
  failed_of_flag hflag := by
    rcases Bool.or_eq_true_iff.mp hflag with hflag | hfailed
    · exact Bool.or_eq_true_iff.mpr (.inl (h.failed_of_flag hflag))
    · exact Bool.or_eq_true_iff.mpr (.inr hfailed)
  failed_of_writer w hw hfailed := by
    obtain rfl := Option.some.inj hw
    exact Bool.or_eq_true_iff.mpr (.inr hfailed)
  flag_or_writer hfailed := by
    rcases Bool.or_eq_true_iff.mp hfailed with hfailed | hfailed
    · exact .inl (Bool.or_eq_true_iff.mpr (.inl ((h.unwritten trivial).2 hfailed)))
    · exact .inl (Bool.or_eq_true_iff.mpr (.inr hfailed))
  toOpen := nofun
  unwritten _ := by
    refine ⟨rfl, fun hfailed => ?_⟩
    rcases Bool.or_eq_true_iff.mp hfailed with hfailed | hfailed
    · exact Bool.or_eq_true_iff.mpr (.inl ((h.unwritten trivial).2 hfailed))
    · exact Bool.or_eq_true_iff.mpr (.inr hfailed)
  drained := nofun
  found := nofun

variable {w : LogWriter Info Block} {final : Bool}

theorem take (h : SinkInv caller (.reading final i) i x sink) {block : Block}
    {rest : List Block} (hpeek : sink.ring.peek 1 = block :: rest) :
    SinkInv caller (.writing final i block) i
      { x with sink := some { sink with ring := (sink.ring.discard 1).2 } }
      { sink with ring := (sink.ring.discard 1).2 } where
  ledger := by
    have hitems : [block] ++ sink.ring.items.drop 1 = sink.ring.items := by
      obtain ⟨tail, htail⟩ : ∃ tail, sink.ring.items = block :: tail := by
        rw [BoundedQueue.peek] at hpeek
        cases hitems : sink.ring.items with
        | nil =>
          rw [hitems] at hpeek
          cases hpeek
        | cons head tail =>
          rw [hitems] at hpeek
          obtain rfl := (List.cons.inj hpeek).1
          exact ⟨tail, rfl⟩
      rw [htail]
      rfl
    have hledger := h.ledger
    show sink.handed ++ (if i = i then [block] else []) ++ sink.ring.items.drop 1 = takenOf x.pushed
    rw [if_pos rfl, List.append_assoc, hitems, ← hledger]
    exact congrArg (· ++ sink.ring.items) (List.append_nil _).symm
  dropped := h.dropped
  failed_of_flag := h.failed_of_flag
  failed_of_writer := h.failed_of_writer
  flag_or_writer := h.flag_or_writer
  toOpen := h.toOpen
  unwritten := nofun
  drained hdrained := by
    cases final with
    | true => exact absurd hdrained (Nat.lt_irrefl i)
    | false => exact hdrained.elim
  found := nofun

/-- The queue was found empty. -/
theorem check (h : SinkInv caller (.reading final i) i x sink)
    (hpeek : sink.ring.peek 1 = []) : SinkInv caller (.checking final i) i x sink :=
  { h with
    drained := fun hdrained => by
      cases final with
      | true => exact absurd hdrained (Nat.lt_irrefl i)
      | false => exact hdrained.elim
    found := fun _ => (List.take_eq_nil_iff.mp hpeek).resolve_left Nat.one_ne_zero }

theorem handOver {block : Block}
    (h : SinkInv caller (.writing final i block) i x sink) (hw : sink.writer = some w)
    (failed : Bool) :
    SinkInv caller (.reading final i) i (x.handOver sink w block failed)
      { sink with writer := some (w.write block failed) } where
  ledger := by
    have hledger := h.ledger
    rw [ChannelSink.handed, hw, LogWriterPc.inFlight, if_pos rfl] at hledger
    show w.blocks ++ [block] ++ [] ++ sink.ring.items = takenOf x.pushed
    rw [List.append_nil]
    exact hledger
  dropped := h.dropped
  failed_of_flag hflag := Bool.or_eq_true_iff.mpr (.inl (h.failed_of_flag hflag))
  failed_of_writer w' hw' hfailed := by
    obtain rfl := Option.some.inj hw'
    rcases Bool.or_eq_true_iff.mp hfailed with hfailed | hfailed
    · exact Bool.or_eq_true_iff.mpr (.inl (h.failed_of_writer w hw hfailed))
    · exact Bool.or_eq_true_iff.mpr (.inr hfailed)
  flag_or_writer hfailed := by
    rcases Bool.or_eq_true_iff.mp hfailed with hfailed | hfailed
    · rcases h.flag_or_writer hfailed with hflag | ⟨w', hw', hfailed'⟩
      · exact .inl hflag
      · obtain rfl := Option.some.inj (hw.symm.trans hw')
        exact .inr ⟨_, rfl, Bool.or_eq_true_iff.mpr (.inl hfailed')⟩
    · exact .inr ⟨_, rfl, Bool.or_eq_true_iff.mpr (.inr hfailed)⟩
  toOpen := nofun
  unwritten := nofun
  drained hdrained := by
    cases final with
    | true => exact absurd hdrained (Nat.lt_irrefl i)
    | false => exact hdrained.elim
  found := nofun

/-- The flag of a sink agrees with its session once the writer has been asked. -/
theorem or_eq_failed {pc : LogWriterPc Info Block}
    (h : SinkInv caller pc i x sink) (hw : sink.writer = some w) :
    (sink.writeFailed || w.writeFailed) = x.failed := by
  rw [Bool.eq_iff_iff, Bool.or_eq_true_iff]
  constructor
  · rintro (hflag | hfailed)
    · exact h.failed_of_flag hflag
    · exact h.failed_of_writer w hw hfailed
  · intro hfailed
    rcases h.flag_or_writer hfailed with hflag | ⟨w', hw', hfailed'⟩
    · exact .inl hflag
    · obtain rfl := Option.some.inj (hw.symm.trans hw')
      exact .inr hfailed'

/-- The pass leaves the index behind. -/
theorem checkWriter (h : SinkInv caller (.checking final i) i x sink) (hw : sink.writer = some w) :
    SinkInv caller (.reading final (i + 1)) i (x.checkWriter sink w)
      { sink with writeFailed := sink.writeFailed || w.writeFailed } where
  ledger := h.ledger
  dropped := h.dropped
  failed_of_flag hflag := (h.or_eq_failed hw).symm.trans hflag
  failed_of_writer := h.failed_of_writer
  flag_or_writer hfailed := .inl ((h.or_eq_failed hw).trans hfailed)
  toOpen hnone := absurd (hw.symm.trans hnone) nofun
  unwritten := nofun
  drained hdrained := by
    cases final with
    | true => exact ⟨h.found rfl, h.or_eq_failed hw⟩
    | false => exact hdrained.elim
  found := nofun

/-- What is let go of has been written. -/
theorem tearDown {j : ℕ} (h : SinkInv caller (.tearingDown j) i x sink)
    (hcaller : caller.uncounted i = 0) (hsink : x.sink = some sink) : ClosedInv x.tearDown := by
  obtain ⟨hempty, hfailed⟩ := h.drained trivial
  have htear : x.tearDown =
      { x with
        sink := none, lastDropped := sink.dropped, lastWriteFailed := sink.writeFailed
        closed := sink.writer } := by
    rw [LogSlot.tearDown, hsink]
  obtain ⟨w, hw⟩ : ∃ w, sink.writer = some w :=
    Option.ne_none_iff_exists'.mp fun hnone => h.toOpen hnone
  have hledger := h.ledger
  rw [hempty, List.append_nil, ChannelSink.handed, hw] at hledger
  rw [htear]
  refine ⟨rfl, ⟨w, hw, (List.append_nil _).symm.trans hledger⟩, ?_, hfailed⟩
  have hdropped := h.dropped
  rwa [hcaller] at hdropped

end SinkInv

namespace LogWriterPc.Keeps

variable {j i : ℕ}

section

variable (final : Bool)

theorem toReading (hne : j ≠ i) :
    (LogWriterPc.reading final i : LogWriterPc Info Block).Keeps (.reading final (i + 1)) j := by
  refine ⟨rfl, Iff.rfl, id, id, ?_, id⟩
  cases final with
  | true => exact fun h => Nat.lt_of_le_of_ne (Nat.le_of_lt_succ h) hne
  | false => exact id

theorem toWriting (block : Block) (hne : j ≠ i) :
    (LogWriterPc.reading final i : LogWriterPc Info Block).Keeps (.writing final i block) j :=
  ⟨if_neg hne.symm, Iff.rfl, id, id, by cases final <;> exact id, id⟩

theorem ofWriting (block : Block) (hne : j ≠ i) :
    (LogWriterPc.writing final i block : LogWriterPc Info Block).Keeps (.reading final i) j :=
  ⟨(if_neg hne.symm).symm, Iff.rfl, id, id, by cases final <;> exact id, id⟩

theorem toChecking (hne : j ≠ i) :
    (LogWriterPc.reading final i : LogWriterPc Info Block).Keeps (.checking final i) j := by
  refine ⟨rfl, Iff.rfl, id, id, by cases final <;> exact id, ?_⟩
  cases final with
  | true => exact fun h => absurd h.symm hne
  | false => exact id

theorem ofChecking (hne : j ≠ i) :
    (LogWriterPc.checking final i : LogWriterPc Info Block).Keeps (.reading final (i + 1)) j := by
  refine ⟨rfl, Iff.rfl, id, id, ?_, False.elim⟩
  cases final with
  | true => exact fun h => Nat.lt_of_le_of_ne (Nat.le_of_lt_succ h) hne
  | false => exact id

theorem tearingDown (hne : j ≠ i) :
    (LogWriterPc.tearingDown i : LogWriterPc Info Block).Keeps (.tearingDown (i + 1)) j :=
  ⟨rfl, ⟨fun h => Nat.lt_of_le_of_ne (Nat.le_of_lt_succ h) hne, fun h => Nat.lt_succ_of_lt h⟩,
    id, id, id, id⟩

theorem endOfPass (hi : kMaxLoggedChannels ≤ i) (hj : j < kMaxLoggedChannels) :
    (LogWriterPc.reading final i : LogWriterPc Info Block).Keeps
      (if final then .tearingDown 0 else .polling) j := by
  cases final with
  | true => exact ⟨rfl, iff_of_false (Nat.not_lt_zero j) id, id, id,
      fun _ => Nat.lt_of_lt_of_le hj hi, id⟩
  | false => exact ⟨rfl, Iff.rfl, id, id, id, id⟩

theorem startOfPass (j : ℕ) :
    (LogWriterPc.polling : LogWriterPc Info Block).Keeps (.reading final 0) j := by
  refine ⟨rfl, Iff.rfl, id, id, ?_, id⟩
  cases final with
  | true => exact fun h => absurd h (Nat.not_lt_zero j)
  | false => exact id

end

theorem opened {spec : SplLogChannelSpec Info} (todo : List (SplLogChannelSpec Info))
    (hne : loggedSlot spec.channel ≠ some j) :
    (LogWriterPc.settingUp (spec :: todo) : LogWriterPc Info Block).Keeps (.settingUp todo) j := by
  refine ⟨rfl, Iff.rfl, ?_, id, id, id⟩
  rintro ⟨spec', hmem, hslot⟩
  rcases List.mem_cons.mp hmem with rfl | hmem
  · exact absurd hslot hne
  · exact ⟨spec', hmem, hslot⟩

end LogWriterPc.Keeps

namespace PipelineInv

variable {s t : LogPipeline Info Block}

section

variable (h : PipelineInv s)

include h

variable {failed : Bool} {i : ℕ} {pc : LogWriterPc Info Block} {final : Bool}

theorem moveWriter (habsent : s.writer ≠ .absent)
    (hlive : s.running = true → s.writer.Live → pc.Live) (hne : pc ≠ .absent)
    (hpc : ∀ i < kMaxLoggedChannels, s.writer.Keeps pc i)
    (hbusy : ∀ i, pc.busyAt = some i → i < kMaxLoggedChannels ∧ (s.slots i).sink ≠ none) :
    PipelineInv { s with writer := pc } :=
  h.move (h.phase.writer habsent hlive hne) (fun _ => rfl) hpc hbusy fun _ => id

/-- A step of the writer thread at one index. -/
theorem updateWriter {x : LogSlot Info Block} (habsent : s.writer ≠ .absent)
    (hlive : s.running = true → s.writer.Live → pc.Live) (hne : pc ≠ .absent)
    (hx : i < kMaxLoggedChannels → SlotInv s.caller pc i x)
    (hothers : ∀ j ≠ i, s.writer.Keeps pc j)
    (hbusy : ∀ j, pc.busyAt = some j →
      (j ≠ i → s.writer.busyAt = some j) ∧ (j = i → i < kMaxLoggedChannels ∧ x.sink ≠ none))
    (hcounting : x.sink ≠ none ∨ ∀ j, s.caller ≠ .counting j) :
    PipelineInv { s.setSlot i x with writer := pc } := by
  refine h.update (h.phase.writer habsent hlive hne) hx (fun j hj => ⟨rfl, hothers j hj⟩) hbusy
    fun j hj => ⟨fun _ => hj, fun hji => ⟨hji ▸ (h.counting j hj).1, ?_⟩⟩
  exact hcounting.resolve_right fun hnot => hnot j hj

theorem setUp {todo : List (SplLogChannelSpec Info)} (hwriter : s.writer = .settingUp todo)
    (hstep : s.writerStep failed = some t) : PipelineInv t := by
  have habsent : s.writer ≠ .absent := by
    rw [hwriter]
    exact nofun
  simp only [LogPipeline.writerStep, hwriter] at hstep
  cases todo with
  | nil =>
    obtain rfl := Option.some.inj hstep
    refine h.moveWriter habsent (fun _ _ => trivial) nofun (fun j _ => ?_) nofun
    rw [hwriter]
    exact ⟨rfl, Iff.rfl, fun ⟨_, hmem, _⟩ => absurd hmem List.not_mem_nil, False.elim, id, id⟩
  | cons spec todo =>
    have hskip : (∀ j < kMaxLoggedChannels, loggedSlot spec.channel = some j →
        (s.slots j).sink = none) → PipelineInv { s with writer := .settingUp todo } := by
      intro hnone
      refine ⟨h.phase.writer habsent (fun _ _ => trivial) nofun, fun j hj => ?_, nofun, h.counting⟩
      have hslot := h.slot j hj
      by_cases hj' : loggedSlot spec.channel = some j
      · refine hslot.move_of_none (hnone j hj hj') ?_
        rw [hwriter]
        exact Iff.rfl
      · refine hslot.move rfl ?_
        rw [hwriter]
        exact .opened todo hj'
    simp only at hstep
    split at hstep
    · rename_i hchannel
      obtain rfl := Option.some.inj hstep
      exact hskip fun j _ hj => absurd (hchannel.symm.trans hj) nofun
    · rename_i i hchannel
      split at hstep
      · rename_i hsink
        obtain rfl := Option.some.inj hstep
        refine hskip fun j _ hj => ?_
        obtain rfl := Option.some.inj (hchannel.symm.trans hj)
        exact hsink
      · rename_i sink hsink
        obtain rfl := Option.some.inj hstep
        refine h.updateWriter habsent (fun _ _ => trivial) nofun (fun hi => ?_) (fun j hj => ?_)
          nofun (.inl nofun)
        · obtain ⟨hlogged, hclosed, hinv⟩ := (h.slot i hi).of_sink hsink
          rw [hwriter] at hinv
          exact .sink hlogged id _ rfl (hinv.openWriter failed)
        · rw [hwriter]
          exact .opened todo fun hij => hj (Option.some.inj (hchannel.symm.trans hij)).symm

theorem poll (hwriter : s.writer = .polling) :
    PipelineInv { s with writer := .reading (!s.running) 0 } := by
  refine h.moveWriter (by rw [hwriter]; exact nofun) (fun hrunning _ => ?_) nofun (fun j _ => ?_) nofun
  · rw [hrunning]
    exact trivial
  · rw [hwriter]
    exact .startOfPass _ j

theorem read (hwriter : s.writer = .reading final i) (hstep : s.writerStep failed = some t) :
    PipelineInv t := by
  have habsent : s.writer ≠ .absent := by
    rw [hwriter]
    exact nofun
  simp only [LogPipeline.writerStep, hwriter] at hstep
  split at hstep
  · rename_i hi
    obtain rfl := Option.some.inj hstep
    refine h.moveWriter habsent ?_ ?_ (fun j hj => ?_) ?_
    · rw [hwriter]
      cases final with
      | true => exact fun _ => False.elim
      | false => exact fun _ _ => trivial
    · cases final <;> exact nofun
    · rw [hwriter]
      exact .endOfPass final hi hj
    · cases final <;> exact nofun
  · rename_i hi
    rw [Nat.not_le] at hi
    split at hstep
    · rename_i hsink
      obtain rfl := Option.some.inj hstep
      refine ⟨h.phase.writer habsent ?_ nofun, fun j hj => ?_, nofun, h.counting⟩
      · rw [hwriter]
        cases final <;> exact fun _ => id
      · have hslot := h.slot j hj
        by_cases hij : j = i
        · subst hij
          refine hslot.move_of_none hsink ?_
          rw [hwriter]
          exact Iff.rfl
        · refine hslot.move rfl ?_
          rw [hwriter]
          exact .toReading final hij
    · rename_i sink hsink
      obtain ⟨hlogged, hclosed, hinv⟩ := (h.slot i hi).of_sink hsink
      rw [hwriter] at hinv hclosed
      split at hstep
      · rename_i hempty
        obtain rfl := Option.some.inj hstep
        refine ⟨h.phase.writer habsent ?_ nofun, fun j hj => ?_, fun j hj => ?_, h.counting⟩
        · rw [hwriter]
          cases final <;> exact fun _ => id
        · by_cases hij : j = i
          · subst hij
            exact .sink hlogged hclosed _ hsink (hinv.check hempty)
          · refine (h.slot j hj).move rfl ?_
            rw [hwriter]
            exact .toChecking final hij
        · obtain rfl := Option.some.inj hj
          exact ⟨hi, fun hnone => absurd (hsink.symm.trans hnone) nofun⟩
      · rename_i block rest hpeek
        obtain rfl := Option.some.inj hstep
        refine h.updateWriter habsent ?_ nofun (fun _ => .sink hlogged hclosed _ rfl (hinv.take hpeek))
          (fun j hj => ?_) (fun j hj => ⟨fun hne => ?_, fun _ => ⟨hi, nofun⟩⟩) (.inl nofun)
        · rw [hwriter]
          cases final <;> exact fun _ => id
        · rw [hwriter]
          exact .toWriting final block hj
        · exact absurd (Option.some.inj hj).symm hne

theorem write {block : Block} (hwriter : s.writer = .writing final i block)
    (hstep : s.writerStep failed = some t) : PipelineInv t := by
  simp only [LogPipeline.writerStep, hwriter] at hstep
  obtain ⟨sink, hsink, hstep⟩ := Option.bind_eq_some_iff.mp hstep
  obtain ⟨w, hw, hstep⟩ := Option.bind_eq_some_iff.mp hstep
  obtain rfl := Option.some.inj hstep
  refine h.updateWriter (by rw [hwriter]; exact nofun) ?_ nofun (fun hi => ?_) (fun j hj => ?_)
    nofun (.inl nofun)
  · rw [hwriter]
    cases final <;> exact fun _ => id
  · obtain ⟨hlogged, hclosed, hinv⟩ := (h.slot i hi).of_sink hsink
    rw [hwriter] at hinv hclosed
    exact .sink hlogged hclosed _ rfl (hinv.handOver hw failed)
  · rw [hwriter]
    exact .ofWriting final block hj

theorem check (hwriter : s.writer = .checking final i) (hstep : s.writerStep failed = some t) :
    PipelineInv t := by
  simp only [LogPipeline.writerStep, hwriter] at hstep
  obtain ⟨sink, hsink, hstep⟩ := Option.bind_eq_some_iff.mp hstep
  obtain ⟨w, hw, hstep⟩ := Option.bind_eq_some_iff.mp hstep
  obtain rfl := Option.some.inj hstep
  refine h.updateWriter (by rw [hwriter]; exact nofun) ?_ nofun (fun hi => ?_) (fun j hj => ?_)
    nofun (.inl nofun)
  · rw [hwriter]
    cases final <;> exact fun _ => id
  · obtain ⟨hlogged, hclosed, hinv⟩ := (h.slot i hi).of_sink hsink
    rw [hwriter] at hinv hclosed
    exact .sink hlogged hclosed _ rfl (hinv.checkWriter hw)
  · rw [hwriter]
    exact .ofChecking final hj

theorem tearDown (hwriter : s.writer = .tearingDown i)
    (hstep : s.writerStep failed = some t) : PipelineInv t := by
  have habsent : s.writer ≠ .absent := by
    rw [hwriter]
    exact nofun
  have hdead : ¬ s.writer.Live := by
    rw [hwriter]
    exact id
  simp only [LogPipeline.writerStep, hwriter] at hstep
  split at hstep
  · rename_i hi
    obtain rfl := Option.some.inj hstep
    refine h.moveWriter habsent (fun _ hlive => absurd hlive hdead) nofun (fun j hj => ?_) nofun
    rw [hwriter]
    exact ⟨rfl, iff_of_true trivial (Nat.lt_of_lt_of_le hj hi), id, id, id, id⟩
  · obtain rfl := Option.some.inj hstep
    -- only a thread in the join lets the writer thread come here
    have hjoining : ∀ j, s.caller ≠ .counting j := by
      intro j hcaller
      have hphase := h.phase
      rw [hcaller] at hphase
      exact hdead hphase.2
    refine h.updateWriter habsent (fun _ hlive => absurd hlive hdead) nofun (fun hi => ?_)
      (fun j hj => ?_) nofun (.inr hjoining)
    · have hslot := h.slot i hi
      rw [hwriter] at hslot
      cases hslot with
      | silent hlogged hsilent =>
        have htear : (s.slots i).tearDown = s.slots i := by rw [LogSlot.tearDown, hsilent.sink_eq]
        rw [htear]
        exact .silent hlogged hsilent
      | closed hlogged hclosed hinv => exact absurd hclosed (Nat.lt_irrefl i)
      | sink hlogged hclosed sink hsink hinv =>
        have huncounted : s.caller.uncounted i = 0 := by
          cases hcaller : s.caller with
          | counting j => exact absurd hcaller (hjoining j)
          | _ => rfl
        refine .closed ?_ (Nat.lt_succ_self i) (hinv.tearDown huncounted hsink)
        rw [LogSlot.tearDown, hsink]
        exact hlogged
    · rw [hwriter]
      exact .tearingDown hj

theorem writerStep (hstep : s.writerStep failed = some t) :
    PipelineInv t := by
  cases hwriter : s.writer with
  | absent | finished =>
    simp only [LogPipeline.writerStep, hwriter] at hstep
    cases hstep
  | settingUp todo => exact h.setUp hwriter hstep
  | polling =>
    simp only [LogPipeline.writerStep, hwriter] at hstep
    obtain rfl := Option.some.inj hstep
    exact h.poll hwriter
  | reading final i => exact h.read hwriter hstep
  | writing final i block => exact h.write hwriter hstep
  | checking final i => exact h.check hwriter hstep
  | tearingDown i => exact h.tearDown hwriter hstep

theorem next {a : LogAct Info Block}
    (hstep : splLogPipeline.step s a = some t) : PipelineInv t := by
  cases a with
  | caller => exact h.callerStep hstep
  | writer failed => exact h.writerStep hstep
  | enable | pushBlock | disable => exact h.call hstep

end

end PipelineInv

/-! ### The account -/

theorem SinkInv.handed_prefix {caller : LogCallerPc Info} {pc : LogWriterPc Info Block} {i : ℕ}
    {x : LogSlot Info Block} {sink : ChannelSink Info Block} (h : SinkInv caller pc i x sink) :
    sink.handed <+: takenOf x.pushed := by
  rw [← h.ledger, List.append_assoc]
  exact List.prefix_append _ _

namespace PipelineInv

variable {s : LogPipeline Info Block} {channel : ℤ} {i : ℕ}

section

variable (h : PipelineInv s)

include h

theorem handed_prefix (hi : i < kMaxLoggedChannels)
    {w : LogWriter Info Block} (hw : (s.slots i).lastWriter = some w) :
    w.blocks <+: takenOf (s.slots i).pushed := by
  rcases h.slot i hi with ⟨_, hsilent⟩ | ⟨_, _, hinv⟩ | ⟨_, _, sink, hsink, hinv⟩
  · rw [LogSlot.lastWriter, hsilent.sink_eq] at hw
    exact absurd (hsilent.closed_eq.symm.trans hw) nofun
  · rw [LogSlot.lastWriter, hinv.sink_eq] at hw
    obtain ⟨w', hw', hblocks⟩ := hinv.blocks_eq
    obtain rfl := Option.some.inj (hw'.symm.trans hw)
    exact hblocks ▸ List.prefix_rfl
  · rw [LogSlot.lastWriter, hsink] at hw
    have hwriter : sink.writer = some w := hw
    have hprefix := hinv.handed_prefix
    rwa [ChannelSink.handed, hwriter] at hprefix

theorem droppedBlocks_eq (hidle : s.caller = .idle) (hchannel : loggedSlot channel = some i) :
    s.droppedBlocks channel =
      if (s.slots i).logged then (refusedOf (s.slots i).pushed).length else 0 := by
  simp only [LogPipeline.droppedBlocks, hchannel]
  rcases h.slot i (loggedSlot_lt hchannel) with
    ⟨hlogged, hsilent⟩ | ⟨hlogged, _, hinv⟩ | ⟨hlogged, _, sink, hsink, hinv⟩
  · simp only [hsilent.sink_eq, hlogged]
    exact hsilent.dropped
  · simp only [hinv.sink_eq, hlogged, if_true]
    exact hinv.dropped
  · simp only [hsink, hlogged, if_true]
    have hdropped := hinv.dropped
    rwa [hidle] at hdropped

theorem failed_of_writeFailed (hchannel : loggedSlot channel = some i)
    (hfailed : s.writeFailed channel = true) : (s.slots i).failed = true := by
  simp only [LogPipeline.writeFailed, hchannel] at hfailed
  rcases h.slot i (loggedSlot_lt hchannel) with
    ⟨_, hsilent⟩ | ⟨_, _, hinv⟩ | ⟨_, _, sink, hsink, hinv⟩
  · simp only [hsilent.sink_eq] at hfailed
    exact absurd (hsilent.failed.symm.trans hfailed) nofun
  · simp only [hinv.sink_eq] at hfailed
    exact hinv.failed.symm.trans hfailed
  · simp only [hsink] at hfailed
    exact hinv.failed_of_flag hfailed

theorem exists_writer (hbusy : s.writer.busyAt = some i) :
    ∃ sink w, (s.slots i).sink = some sink ∧ sink.writer = some w := by
  obtain ⟨hi, hsink⟩ := h.busy i hbusy
  obtain ⟨sink, hsink⟩ := Option.ne_none_iff_exists'.mp hsink
  have hinv := ((h.slot i hi).of_sink hsink).2.2
  have hopen : ¬ s.writer.ToOpen i := by
    cases hwriter : s.writer with
    | settingUp todo =>
      rw [hwriter] at hbusy
      cases hbusy
    | _ => exact id
  obtain ⟨w, hw⟩ := Option.ne_none_iff_exists'.mp fun hnone => hopen (hinv.toOpen hnone)
  exact ⟨sink, w, hsink, hw⟩

theorem writerStep_ne_none (habsent : s.writer ≠ .absent)
    (hfinished : s.writer ≠ .finished) (failed : Bool) : s.writerStep failed ≠ none := by
  simp only [LogPipeline.writerStep]
  cases hwriter : s.writer with
  | absent => exact absurd hwriter habsent
  | finished => exact absurd hwriter hfinished
  | settingUp todo =>
    cases todo with
    | nil => exact nofun
    | cons spec todo =>
      dsimp only
      split
      · exact nofun
      · split <;> exact nofun
  | polling => exact nofun
  | reading final i =>
    dsimp only
    split
    · exact nofun
    · split
      · exact nofun
      · split <;> exact nofun
  | writing final i block | checking final i =>
    obtain ⟨sink, w, hsink, hw⟩ := h.exists_writer (by rw [hwriter]; rfl)
    simp only [hsink, hw, Option.bind_eq_bind, Option.bind_some]
    exact nofun
  | tearingDown i =>
    dsimp only
    split <;> exact nofun

theorem callerStep_ne_none (hcaller : s.caller = .counting i) :
    s.callerStep ≠ none := by
  obtain ⟨sink, hsink⟩ := Option.ne_none_iff_exists'.mp (h.counting i hcaller).2
  simp only [LogPipeline.callerStep, hcaller, hsink]
  exact nofun

/-- Between sessions everything has been let go of. -/
theorem closed_of_stopped (hidle : s.caller = .idle)
    (hstopped : s.running = false) (hi : i < kMaxLoggedChannels)
    (hlogged : (s.slots i).logged = true) : ClosedInv (s.slots i) := by
  have hphase := h.phase
  rw [hidle, hstopped] at hphase
  obtain ⟨-, habsent⟩ := hphase.resolve_left fun h => absurd h.1 nofun
  rcases h.slot i hi with ⟨hsilent, _⟩ | ⟨_, _, hinv⟩ | ⟨_, _, sink, hsink, _⟩
  · exact absurd (hsilent.symm.trans hlogged) nofun
  · exact hinv
  · exact absurd (hsink.symm.trans (h.sink_eq_none habsent hi)) nofun

end

end PipelineInv

/-- **Headline.** Whatever is pushed and however the two threads interleave, when `disable` has
returned each channel's writer was handed the pushes since `enable` that `droppedBlocks` does not
count, in their order and once each; and at no time does a session see a block, a count or a failure
of another. -/
theorem log_accounted {s : LogPipeline Info Block} (h : splLogPipeline.Reachable s) :
    s.Accounted := by
  have hinv : PipelineInv s := by
    refine h.invariant PipelineInv ?_ fun s a t hs hstep => hs.next hstep
    rintro s rfl
    exact .start
  constructor
  · intro hidle hstopped channel i hchannel hlogged
    have hclosed := hinv.closed_of_stopped hidle hstopped (loggedSlot_lt hchannel) hlogged
    obtain ⟨w, hw, hblocks⟩ := hclosed.blocks_eq
    refine ⟨w, ?_, hblocks, ?_⟩
    · simp only [LogSlot.lastWriter, hclosed.sink_eq]
      exact hw
    · simp only [LogPipeline.writeFailed, hchannel, hclosed.sink_eq]
      exact hclosed.failed
  · exact fun channel i w hchannel hw => hinv.handed_prefix (loggedSlot_lt hchannel) hw
  · exact fun hidle channel i hchannel => hinv.droppedBlocks_eq hidle hchannel
  · exact fun channel i hchannel => hinv.failed_of_writeFailed hchannel
  · exact ⟨hinv.writerStep_ne_none, fun i => hinv.callerStep_ne_none⟩

/-- A session with one channel and room for one block in its queue. -/
def oneBlockSession : SplLogEnableParams Unit where
  channels := [⟨3, "ch3", ()⟩]
  queueCapacityBlocks := 1

/-- Two blocks are pushed before the writer is open, and one while the writer thread has found the
queue empty and not yet looked at the flag again. -/
def overfullSession : List (LogAct Unit ℕ) :=
  List.flatten
    [[.enable oneBlockSession, .caller, .caller, .pushBlock 3 10, .pushBlock 3 11, .caller],
      List.replicate 9 (.writer false), [.pushBlock 3 12, .disable, .caller],
      List.replicate 196 (.writer false), [.caller]]

theorem log_accounted_overfullSession :
    ∃ s : LogPipeline Unit ℕ, splLogPipeline.exec {} overfullSession = some s ∧
      (s.droppedBlocks 3 = 1 ∧ (s.slots 3).closed.map (·.blocks) = some [10, 12]) ∧
      s.Accounted := by
  have hrun : (splLogPipeline.exec {} overfullSession).map
      (fun s => (s.droppedBlocks 3, (s.slots 3).closed.map (·.blocks))) = some (1, some [10, 12]) := by
    decide +kernel
  obtain ⟨s, hs, hvalues⟩ := Option.map_eq_some_iff.mp hrun
  exact ⟨s, hs, Prod.mk.inj hvalues, log_accounted ((Machine.Reachable.init rfl).exec hs)⟩

end RtaTool
