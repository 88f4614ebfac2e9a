import RtaTool.Lib.BoundedQueue
import RtaTool.Platform.OutputEngine

/-!
# The capture bus

`CaptureBus` takes blocks from the audio callback into one ring per channel, and hands the rings to
one consumer. When the set of written channels changes, or a device has been prepared anew, a gate
keeps the callback out until the consumer has emptied every ring, so that all of them start again
at one block.

This file reads each member function as if nothing else ran. A ring is a `BoundedQueue`, time is a
number of milliseconds, and the samples are of any type. `ring(channel)` hands out a pointer, which
here is the channel's number.

## Main definitions

* `ChannelConfig`, `CaptureBus`
* `CaptureBus.prepare`, `CaptureBus.serviceResyncAsConsumer`, `CaptureBus.pushFromCallback`
-/

namespace RtaTool

/-! ### Roles -/

/-- `ChannelRole`. -/
inductive ChannelRole
  | unused
  | measurement
  | reference
  deriving DecidableEq, Repr

/-- `ChannelConfig`: only `[0, kMaxChannels)` is ever written. -/
structure ChannelConfig where
  roles : ℕ → ChannelRole := fun _ => .unused
  tfIndex : ℕ → ℕ := fun _ => 0

namespace ChannelConfig

/-- The bounds check of every access to the table. -/
def inTable (channel : ℤ) : Prop := 0 ≤ channel ∧ channel < kMaxChannels

instance : DecidablePred inTable := fun _ => inferInstanceAs (Decidable (_ ∧ _))

/-- `setRole(channel, role)`; outside the table nothing happens. -/
def setRole (c : ChannelConfig) (channel : ℤ) (role : ChannelRole) : ChannelConfig :=
  if inTable channel then { c with roles := Function.update c.roles channel.toNat role } else c

/-- `setTransferFunction(channel, tf)`; outside the table nothing happens. -/
def setTransferFunction (c : ChannelConfig) (channel tf : ℤ) : ChannelConfig :=
  if inTable channel ∧ inTable tf then
    { c with tfIndex := Function.update c.tfIndex channel.toNat tf.toNat }
  else c

/-- `snapshot(numChannelsReceived, out)`. -/
def snapshot (c : ChannelConfig) (numChannelsReceived : ℤ) (ch : ℕ) : ChannelRole :=
  if ch < min numChannelsReceived.toNat kMaxChannels then c.roles ch else .unused

/-- `firstChannelWithRole(role)`. -/
def firstChannelWithRole (c : ChannelConfig) (role : ChannelRole) : Option ℕ :=
  (List.range kMaxChannels).find? fun ch => c.roles ch = role

end ChannelConfig

/-! ### The bus -/

/-- `CaptureBus`. -/
structure CaptureBus (Sample : Type) where
  rings : ℕ → BoundedQueue Sample
  config : ChannelConfig
  drops : ℕ → ℕ
  active : Bool
  epoch : ℕ
  consumerAttached : Bool
  resyncPending : Bool
  resyncFrames : ℕ
  resyncLostFrames : ℕ
  resyncSeq : ℕ
  resyncAckTimeouts : ℕ
  gateSeen : ℕ
  gateSeenAtRaise : ℕ
  consumerWaiting : Bool
  consumerRaisedAt : ℕ
  consumerAckTimeout : ℕ
  consumerWriterMask : UInt64
  sampleRate : ℚ
  preparedChannels : ℕ

/-- What the device hands to `pushFromCallback`: no pointer at all, or one for each channel, null
or to as many samples as the block has. -/
structure CallbackBlock (Sample : Type) where
  input : Option (ℕ → Option (List Sample))
  numChannels : ℤ
  numSamples : ℤ

namespace CaptureBus

variable {Sample : Type}

/-- The constructor. -/
def make (ringCapacity : ℕ) : CaptureBus Sample where
  rings := fun _ => .empty ringCapacity.nextPowerOfTwo
  config := {}
  drops := fun _ => 0
  active := false
  epoch := 0
  consumerAttached := false
  resyncPending := false
  resyncFrames := 0
  resyncLostFrames := 0
  resyncSeq := 0
  resyncAckTimeouts := 0
  gateSeen := 0
  gateSeenAtRaise := 0
  consumerWaiting := false
  consumerRaisedAt := 0
  consumerAckTimeout := 500
  consumerWriterMask := 0
  sampleRate := 0
  preparedChannels := 0

/-- `setActive(active)`. -/
def setActive (b : CaptureBus Sample) (active : Bool) : CaptureBus Sample :=
  { b with active := active }

/-- `setRole(channel, role)` on the bus's table. -/
def setRole (b : CaptureBus Sample) (channel : ℤ) (role : ChannelRole) : CaptureBus Sample :=
  { b with config := b.config.setRole channel role }

/-- `setTransferFunction(channel, tf)` on the bus's table. -/
def setTransferFunction (b : CaptureBus Sample) (channel tf : ℤ) : CaptureBus Sample :=
  { b with config := b.config.setTransferFunction channel tf }

/-- One turn of `writerMask`'s loop. -/
def addWriter (b : CaptureBus Sample) (mask : UInt64) (ch : ℕ) : UInt64 :=
  if b.config.roles ch ≠ .unused then mask ||| (1 <<< UInt64.ofNat ch) else mask

/-- `writerMask()`. -/
def writerMask (b : CaptureBus Sample) : UInt64 := (List.range kMaxChannels).foldl b.addWriter 0

/-- `attachConsumer()`. -/
def attachConsumer (b : CaptureBus Sample) : CaptureBus Sample :=
  { b with consumerWriterMask := b.writerMask, consumerAttached := true }

/-- The mark of `raiseGate`, taken from `gateSeen_` as it was loaded. -/
def markGate (b : CaptureBus Sample) (seen : ℕ) : CaptureBus Sample :=
  { b with gateSeenAtRaise := seen, resyncSeq := b.resyncSeq + 1 }

/-- `raiseGate()`. -/
def raiseGate (b : CaptureBus Sample) : CaptureBus Sample :=
  { b.markGate b.gateSeen with resyncPending := true }

/-- What `prepare` stores before it looks for a consumer. -/
def relabel (b : CaptureBus Sample) (sampleRate : ℚ) (numChannels : ℤ) : CaptureBus Sample :=
  { b with
    drops := fun _ => 0
    resyncFrames := 0
    sampleRate := sampleRate
    preparedChannels := min numChannels.toNat kMaxChannels }

/-- `prepare(sampleRate, numChannels)`. -/
def prepare (b : CaptureBus Sample) (sampleRate : ℚ) (numChannels : ℤ) : CaptureBus Sample :=
  let relabelled := b.relabel sampleRate numChannels
  let gated := if relabelled.consumerAttached then relabelled.raiseGate else relabelled
  { gated with epoch := gated.epoch + 1 }

/-! ### The consumer -/

/-- `rings_[ch]->discard(count)`. -/
def discardRing (b : CaptureBus Sample) (ch count : ℕ) : CaptureBus Sample :=
  { b with rings := Function.update b.rings ch ((b.rings ch).discard count).2 }

/-- `rings_[ch]->availableToRead()`. -/
def availableToRead (b : CaptureBus Sample) (ch : ℕ) : ℕ := (b.rings ch).items.length

/-- One turn of `drainAsConsumer`'s loop, with the largest count so far. -/
def drainRing (r : ℕ × CaptureBus Sample) (ch : ℕ) : ℕ × CaptureBus Sample :=
  let discarded := ((r.2.rings ch).discard (r.2.availableToRead ch)).1
  (max r.1 discarded, r.2.discardRing ch (r.2.availableToRead ch))

/-- `drainAsConsumer()`. -/
def drainAsConsumer (b : CaptureBus Sample) : ℕ × CaptureBus Sample :=
  (List.range kMaxChannels).foldl drainRing (0, b)

/-- The consumer starts its clock, if it is not running. -/
def noteWaiting (b : CaptureBus Sample) (now : ℕ) : CaptureBus Sample :=
  if b.consumerWaiting then b else { b with consumerWaiting := true, consumerRaisedAt := now }

/-- `now - consumerRaisedAt_ >= consumerAckTimeout_`. -/
def ackTimedOut (b : CaptureBus Sample) (now : ℕ) : Bool :=
  decide (b.consumerAckTimeout ≤ now - b.consumerRaisedAt)

/-- What is counted once the rings have been drained. -/
def noteDrained (b : CaptureBus Sample) (largest : ℕ) : CaptureBus Sample :=
  { b with
    resyncLostFrames := b.resyncLostFrames + largest
    resyncSeq := b.resyncSeq + 1
    consumerWaiting := false }

/-- A drain that goes ahead on the timeout is counted. -/
def countTimeout (b : CaptureBus Sample) : CaptureBus Sample :=
  { b with resyncAckTimeouts := b.resyncAckTimeouts + 1 }

/-- The first half of `serviceResyncAsConsumer`: a change in the set of written channels raises the
gate. -/
def checkWriters (b : CaptureBus Sample) : CaptureBus Sample :=
  if b.writerMask ≠ b.consumerWriterMask then
    ({ b with consumerWriterMask := b.writerMask } : CaptureBus Sample).raiseGate
  else b

/-- The drain of the second half, and the lowering of the gate. -/
def finishResync (b : CaptureBus Sample) : CaptureBus Sample :=
  let drained := b.drainAsConsumer
  { drained.2.noteDrained drained.1 with resyncPending := false }

/-- The second half: while the gate is up, wait for a callback that saw it, and then drain. -/
def resyncIfPending (b : CaptureBus Sample) (now : ℕ) : Bool × CaptureBus Sample :=
  if !b.resyncPending then (false, { b with consumerWaiting := false })
  else
    let waiting := b.noteWaiting now
    let acknowledged := decide (waiting.gateSeen ≠ waiting.gateSeenAtRaise)
    let idle := !waiting.active
    let timedOut := waiting.ackTimedOut now
    if !acknowledged && !idle && !timedOut then (false, waiting)
    else if timedOut && !acknowledged && !idle then (true, waiting.countTimeout.finishResync)
    else (true, waiting.finishResync)

/-- `serviceResyncAsConsumer()`, at time `now`. -/
def serviceResyncAsConsumer (b : CaptureBus Sample) (now : ℕ) : Bool × CaptureBus Sample :=
  b.checkWriters.resyncIfPending now

/-! ### The callback -/

/-- A callback that saw the gate up counts it. -/
def noteGateSeen (b : CaptureBus Sample) : CaptureBus Sample :=
  { b with gateSeen := b.gateSeen + 1 }

/-- And its frames. -/
def noteRefused (b : CaptureBus Sample) (numSamples : ℤ) : CaptureBus Sample :=
  { b with
    resyncFrames := b.resyncFrames + numSamples.toNat
    resyncLostFrames := b.resyncLostFrames + numSamples.toNat }

/-- What of a block goes to a channel's ring: nothing if the channel has no role or no data. -/
def routedTo (roles : ℕ → ChannelRole) (input : ℕ → Option (List Sample)) (ch : ℕ) :
    Option (List Sample) :=
  if roles ch = .unused then none else input ch

/-- Whether the ring of a channel would take what is routed to it. -/
def takes (b : CaptureBus Sample) (src : Option (List Sample)) (ch : ℕ) : Bool :=
  match src with
  | none => false
  | some samples => ((b.rings ch).write samples).1

/-- One turn of `pushFromCallback`'s loop: all of the block or none of it, and then the frames are
counted as dropped. -/
def writeRing (b : CaptureBus Sample) (src : Option (List Sample)) (ch : ℕ) : CaptureBus Sample :=
  match src with
  | none => b
  | some samples =>
    { b with
      rings := Function.update b.rings ch ((b.rings ch).write samples).2
      drops := if ((b.rings ch).write samples).1 then b.drops
        else Function.update b.drops ch (b.drops ch + samples.length) }

/-- How many channels of a block are looked at. -/
def writeLimit (b : CaptureBus Sample) (numChannels : ℤ) : ℕ :=
  min numChannels.toNat b.preparedChannels

/-- `pushFromCallback(input, numChannels, numSamples)`. -/
def pushFromCallback (b : CaptureBus Sample) (block : CallbackBlock Sample) : CaptureBus Sample :=
  if !b.active then b
  else
    match block.input with
    | none => b
    | some input =>
      if block.numChannels ≤ 0 ∨ block.numSamples ≤ 0 then b
      else if b.resyncPending then b.noteGateSeen.noteRefused block.numSamples
      else
        (List.range (b.writeLimit block.numChannels)).foldl
          (fun b' ch => b'.writeRing (routedTo (b.config.snapshot block.numChannels) input ch) ch)
          b

/-! ### What a call does to the rings -/

theorem writeRing_rings (b : CaptureBus Sample) (samples : List Sample) (ch : ℕ) :
    (b.writeRing (some samples) ch).rings =
      Function.update b.rings ch ((b.rings ch).write samples).2 := rfl

theorem rings_discardRing (b : CaptureBus Sample) (ch count j : ℕ) :
    ((b.discardRing ch count).rings j).items =
      if j = ch then (b.rings ch).items.drop count else (b.rings j).items := by
  simp only [discardRing, Function.update_apply]
  split <;> rfl

end CaptureBus

end RtaTool
