import Mathlib.Algebra.Group.Nat.Defs
import RtaTool.Lib.BoundedQueue
import RtaTool.Lib.Machine

/-!
# The log pipeline

The analysis thread closes blocks and must not touch a file. So it pushes them into a queue per
channel, counts those a full queue refuses, and a thread of the pipeline's own takes them out again
and hands them to the channel's writer. `disable` clears a flag and joins that thread, which sees
the flag, drains once more, keeps the counts and lets go of everything.

A step is one access to what the two threads share, with a queue's own operations taken whole:
`RtaTool.Dsp.RingBufferThreads` shows that a ring with one producer and one consumer cannot be told
from such a queue. Where only one of the two threads is there, in `enable` after `disable` and after
a join, steps that nothing can come between are one step. Whether the file operation in a step fails
is given by the action. A thread that cannot be started, and memory that runs out in `enable`, are
left out; the header file of the session is too, since nothing is read back from it.

Each slot keeps, beside what the source has at that index of its three arrays, four fields that no
step reads: whether the session logs the channel, what was pushed since `enable` and whether the
queue took it, whether an operation on its file failed, and the writer that was let go of.

## Main definitions

* `LogWriter`, `ChannelSink`, `LogSlot`, `LogPipeline`
* `callerStep`, `writerStep`, `splLogPipeline` -- the machine
-/

namespace RtaTool

variable {Info Block : Type}

/-! ### A slot -/

/-- `kMaxLoggedChannels`. -/
def kMaxLoggedChannels : ℕ := 64

/-- `SplLogChannelSpec`; `info` is what the writer's header is made from. -/
structure SplLogChannelSpec (Info : Type) where
  channel : ℤ
  basePath : String
  info : Info
  deriving DecidableEq, Repr

/-- `SplLogEnableParams`. -/
structure SplLogEnableParams (Info : Type) where
  channels : List (SplLogChannelSpec Info)
  queueCapacityBlocks : ℕ := 256
  deriving DecidableEq, Repr

/-- An `SplLogWriter` as the pipeline sees it: the blocks it was handed, and `writeFailed()`. -/
structure LogWriter (Info Block : Type) where
  spec : SplLogChannelSpec Info
  blocks : List Block := []
  writeFailed : Bool := false

/-- `write(block)`; a failure is remembered. -/
def LogWriter.write (w : LogWriter Info Block) (block : Block) (failed : Bool) :
    LogWriter Info Block :=
  { w with blocks := w.blocks ++ [block], writeFailed := w.writeFailed || failed }

/-- `ChannelSink`. -/
structure ChannelSink (Info Block : Type) where
  ring : BoundedQueue Block
  writer : Option (LogWriter Info Block) := none
  dropped : ℕ := 0
  writeFailed : Bool := false

/-- One index of `sinks_`, `lastDropped_` and `lastWriteFailed_`. -/
structure LogSlot (Info Block : Type) where
  sink : Option (ChannelSink Info Block) := none
  lastDropped : ℕ := 0
  lastWriteFailed : Bool := false
  logged : Bool := false
  pushed : List (Block × Bool) := []
  failed : Bool := false
  closed : Option (LogWriter Info Block) := none

/-- The index of a channel in range. -/
def loggedSlot (channel : ℤ) : Option ℕ :=
  if 0 ≤ channel ∧ channel < kMaxLoggedChannels then some channel.toNat else none

/-- The capacity of a `RingBuffer` asked for `minCapacity`, whose constructor throws on zero. -/
def ringCapacity (minCapacity : ℕ) : Option ℕ :=
  if minCapacity = 0 then none
  else if minCapacity.nextPowerOfTwo ≤ 2 ^ 63 then some minCapacity.nextPowerOfTwo
  else none

/-- Whether one of the specs is for the index. -/
def SplLogEnableParams.logs (params : SplLogEnableParams Info) (i : ℕ) : Bool :=
  params.channels.any fun spec => loggedSlot spec.channel = some i

namespace LogSlot

/-- `enable` on one index: the counts are zeroed, and a logged channel gets a new sink. -/
def begin (x : LogSlot Info Block) (capacity : Option ℕ) : LogSlot Info Block :=
  match capacity with
  | none => { sink := x.sink }
  | some capacity => { sink := some { ring := .empty capacity }, logged := true }

/-- A push of the session. -/
def note (x : LogSlot Info Block) (running : Bool) (push : Block × Bool) : LogSlot Info Block :=
  if running then { x with pushed := x.pushed ++ [push] } else x

/-- `setupWriters` for one spec of the index. -/
def openWriter (x : LogSlot Info Block) (sink : ChannelSink Info Block)
    (spec : SplLogChannelSpec Info) (failed : Bool) : LogSlot Info Block :=
  { x with
    sink := some { sink with
      writer := some { spec := spec, writeFailed := failed }
      writeFailed := sink.writeFailed || failed }
    failed := x.failed || failed }

/-- A block is handed to the writer. -/
def handOver (x : LogSlot Info Block) (sink : ChannelSink Info Block) (w : LogWriter Info Block)
    (block : Block) (failed : Bool) : LogSlot Info Block :=
  { x with
    sink := some { sink with writer := some (w.write block failed) }
    failed := x.failed || failed }

/-- The writer's failure is passed on. -/
def checkWriter (x : LogSlot Info Block) (sink : ChannelSink Info Block)
    (w : LogWriter Info Block) : LogSlot Info Block :=
  { x with sink := some { sink with writeFailed := sink.writeFailed || w.writeFailed } }

/-- The counts are kept and the sink is let go of. -/
def tearDown (x : LogSlot Info Block) : LogSlot Info Block :=
  match x.sink with
  | none => x
  | some sink =>
    { x with
      sink := none
      lastDropped := sink.dropped
      lastWriteFailed := sink.writeFailed
      closed := sink.writer }

end LogSlot

/-! ### The two threads -/

/-- The thread that calls. Inside `disable`, `next` is what `enable` goes on with. -/
inductive LogCallerPc (Info : Type)
  | idle
  | disabling (next : Option (SplLogEnableParams Info))
  | joining (next : Option (SplLogEnableParams Info))
  | enabling (params : SplLogEnableParams Info)
  | counting (i : ℕ)

/-- The writer thread. A pass of `drainOnce` is the final one or not. -/
inductive LogWriterPc (Info Block : Type)
  | absent
  | settingUp (todo : List (SplLogChannelSpec Info))
  | polling
  | reading (final : Bool) (i : ℕ)
  | writing (final : Bool) (i : ℕ) (block : Block)
  | checking (final : Bool) (i : ℕ)
  | tearingDown (i : ℕ)
  | finished

/-- The pipeline and where its threads stand. -/
structure LogPipeline (Info Block : Type) where
  slots : ℕ → LogSlot Info Block := fun _ => {}
  running : Bool := false
  caller : LogCallerPc Info := .idle
  writer : LogWriterPc Info Block := .absent

/-- What the threads do. -/
inductive LogAct (Info Block : Type)
  | enable (params : SplLogEnableParams Info)
  | pushBlock (channel : ℤ) (block : Block)
  | disable
  | caller
  | writer (failed : Bool)

namespace LogPipeline

/-- The pipeline with one index changed. -/
def setSlot (s : LogPipeline Info Block) (i : ℕ) (x : LogSlot Info Block) :
    LogPipeline Info Block :=
  { s with slots := Function.update s.slots i x }

/-- `droppedBlocks(channel)`. -/
def droppedBlocks (s : LogPipeline Info Block) (channel : ℤ) : ℕ :=
  match loggedSlot channel with
  | none => 0
  | some i =>
    match (s.slots i).sink with
    | none => (s.slots i).lastDropped
    | some sink => sink.dropped

/-- `writeFailed(channel)`. -/
def writeFailed (s : LogPipeline Info Block) (channel : ℤ) : Bool :=
  match loggedSlot channel with
  | none => false
  | some i =>
    match (s.slots i).sink with
    | none => (s.slots i).lastWriteFailed
    | some sink => sink.writeFailed

/-- `pushBlock(channel, block)`, as far as the write into the queue. -/
def pushBlock (s : LogPipeline Info Block) (channel : ℤ) (block : Block) :
    LogPipeline Info Block :=
  match loggedSlot channel with
  | none => s
  | some i =>
    match (s.slots i).sink with
    | none => s.setSlot i ((s.slots i).note s.running (block, false))
    | some sink =>
      let (taken, ring) := sink.ring.write [block]
      { s.setSlot i { (s.slots i).note s.running (block, taken) with
          sink := some { sink with ring := ring } } with
        caller := if taken then .idle else .counting i }

/-- What is left of `enable` after `disable`. -/
def finishEnable (s : LogPipeline Info Block) (params : SplLogEnableParams Info) :
    LogPipeline Info Block :=
  match ringCapacity params.queueCapacityBlocks with
  | none =>
    if (List.range kMaxLoggedChannels).any params.logs then
      -- the queue's constructor throws
      { s with slots := fun i => (s.slots i).begin none, caller := .idle }
    else
      { s with
        slots := fun i => (s.slots i).begin none
        running := true
        caller := .idle
        writer := .settingUp params.channels }
  | some capacity =>
    { s with
      slots := fun i => (s.slots i).begin (if params.logs i then some capacity else none)
      running := true
      caller := .idle
      writer := .settingUp params.channels }

/-- Where a call goes on when `disable` returns. -/
def afterDisable : Option (SplLogEnableParams Info) → LogCallerPc Info
  | none => .idle
  | some params => .enabling params

/-- The calling thread's next access. -/
def callerStep (s : LogPipeline Info Block) : Option (LogPipeline Info Block) :=
  match s.caller with
  | .idle => none
  | .disabling next =>
    if s.running then some { s with running := false, caller := .joining next }
    else some { s with caller := afterDisable next }
  | .joining next =>
    match s.writer with
    | .finished => some { s with writer := .absent, caller := afterDisable next }
    | _ => none
  | .enabling params => some (s.finishEnable params)
  | .counting i =>
    match (s.slots i).sink with
    | none => none
    | some sink =>
      some { s.setSlot i { s.slots i with
          sink := some { sink with dropped := sink.dropped + 1 } } with caller := .idle }

/-- The writer thread's next access. -/
def writerStep (s : LogPipeline Info Block) (failed : Bool) : Option (LogPipeline Info Block) :=
  match s.writer with
  | .absent | .finished => none
  | .settingUp [] => some { s with writer := .polling }
  | .settingUp (spec :: todo) =>
    match loggedSlot spec.channel with
    | none => some { s with writer := .settingUp todo }
    | some i =>
      match (s.slots i).sink with
      | none => some { s with writer := .settingUp todo }
      | some sink =>
        some { s.setSlot i ((s.slots i).openWriter sink spec failed) with
          writer := .settingUp todo }
  | .polling => some { s with writer := .reading (!s.running) 0 }
  | .reading final i =>
    if kMaxLoggedChannels ≤ i then
      some { s with writer := if final then .tearingDown 0 else .polling }
    else
      match (s.slots i).sink with
      | none => some { s with writer := .reading final (i + 1) }
      | some sink =>
        match sink.ring.peek 1 with
        | [] => some { s with writer := .checking final i }
        | block :: _ =>
          some { s.setSlot i { s.slots i with
              sink := some { sink with ring := (sink.ring.discard 1).2 } } with
            writer := .writing final i block }
  | .writing final i block => do
    let sink ← (s.slots i).sink
    let w ← sink.writer
    some { s.setSlot i ((s.slots i).handOver sink w block failed) with writer := .reading final i }
  | .checking final i => do
    let sink ← (s.slots i).sink
    let w ← sink.writer
    some { s.setSlot i ((s.slots i).checkWriter sink w) with writer := .reading final (i + 1) }
  | .tearingDown i =>
    if kMaxLoggedChannels ≤ i then some { s with writer := .finished }
    else some { s.setSlot i (s.slots i).tearDown with writer := .tearingDown (i + 1) }

/-- A call begins. -/
def call (s : LogPipeline Info Block) (a : LogAct Info Block) : Option (LogPipeline Info Block) :=
  match s.caller, a with
  | .idle, .enable params => some { s with caller := .disabling (some params) }
  | .idle, .pushBlock channel block => some (s.pushBlock channel block)
  | .idle, .disable => some { s with caller := .disabling none }
  | _, _ => none

end LogPipeline

/-- The pipeline between the thread that calls it and its own. -/
def splLogPipeline : Machine (LogPipeline Info Block) (LogAct Info Block) where
  init s := s = {}
  step s
    | .caller => s.callerStep
    | .writer failed => s.writerStep failed
    | a => s.call a

end RtaTool
