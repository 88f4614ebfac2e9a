import RtaTool.Dsp.RingBuffer
import RtaTool.Lib.Machine

/-!
# A producer and a consumer on one ring

The calls of `RingBuffer` cut at every load of an index, every copied element and every store of an
index. The producer's thread makes writes, the consumer's peeks, discards and reads, and either may
be interrupted anywhere. What a thread has loaded it keeps, however old it gets.

A queue runs alongside (`RingRun.queue`): it takes a write when the write index is stored and gives
up elements when the read index is. The ring stands for it after every step. So an element can be
copied out only when its write is complete, and until it has been discarded the slot it is in is not
written to.

The indices may start anywhere, so that a run past 2 ^ 64 is one of the runs.

## Main definitions

* `RingProducerPc`, `RingConsumerPc`, `RingRun`, `ringThreads` -- the machine
* `RingRun.Refines` -- what a step may do, on steps

## Main results

* `ring_refines_fifo`
-/

namespace RtaTool

variable {T : Type}

/-- What the consumer asked for: a peek, or the peek that a read begins with, which is at the
front. -/
structure PeekCall where
  size : ℕ
  offset : ℕ
  thenDiscard : Bool
  offset_eq : thenDiscard = true → offset = 0
  deriving DecidableEq

/-- The peek of `peek(dst, offset)`. -/
def PeekCall.ofPeek (size offset : ℕ) : PeekCall := ⟨size, offset, false, Bool.noConfusion⟩

/-- The peek of `read(dst)`. -/
def PeekCall.ofRead (size : ℕ) : PeekCall := ⟨size, 0, true, fun _ => rfl⟩

/-- Where the producer is in `write(src)`. -/
inductive RingProducerPc (T : Type)
  | idle
  | loadWrite (src : List T)
  | loadRead (src : List T) (write : UInt64)
  | copying (src : List T) (write : UInt64) (i : ℕ)
  deriving DecidableEq

/-- Where the consumer is in `peek`, `discard` or `read`. A discard that is the end of a read comes
with what the read has copied. -/
inductive RingConsumerPc (T : Type)
  | idle
  | peekLoadRead (call : PeekCall)
  | peekLoadWrite (call : PeekCall) (read : UInt64)
  | copying (call : PeekCall) (read : UInt64) (count : ℕ) (dst : List T)
  | peeked (call : PeekCall) (dst : List T)
  | discardLoadRead (count : ℕ) (copied : Option (List T))
  | discardLoadWrite (count : ℕ) (read : UInt64) (copied : Option (List T))
  | storing (read : UInt64) (n : ℕ) (copied : Option (List T))
  deriving DecidableEq

/-- A ring and its two threads; and, for the statements, the queue it should be, all that was ever
accepted, and how much of that is gone. -/
structure RingRun (T : Type) where
  ring : RingBuffer T
  producer : RingProducerPc T
  consumer : RingConsumerPc T
  queue : BoundedQueue T
  accepted : List T
  consumed : ℕ

/-- A call of either thread, or its next step. -/
inductive RingAct (T : Type)
  | write (src : List T)
  | producer
  | peek (size offset : ℕ)
  | discard (count : ℕ)
  | read (size : ℕ)
  | consumer

namespace RingBuffer

/-- The ring with one element copied in. -/
def setSlot (r : RingBuffer T) (slot : ℕ) (x : T) : RingBuffer T :=
  { r with
    storage := r.storage.set slot x
    capacity_eq := by
      rw [List.length_set]
      exact r.capacity_eq }

/-- The slot of element `i` of a copy of `n` elements behind `index`. -/
def copySlot (r : RingBuffer T) (index : UInt64) (n i : ℕ) : ℕ :=
  partSlot r.capacity (r.slot index) n i

end RingBuffer

namespace RingRun

/-- A ring that nobody uses yet. -/
def start (r : RingBuffer T) : RingRun T where
  ring := r
  producer := .idle
  consumer := .idle
  queue := .empty r.capacity
  accepted := []
  consumed := 0

/-- The producer's next step. -/
def producerStep (s : RingRun T) : Option (RingRun T) :=
  match s.producer with
  | .idle => none
  | .loadWrite src => some { s with producer := .loadRead src s.ring.writeIndex }
  | .loadRead src write =>
    if (UInt64.ofNat s.ring.capacity - (write - s.ring.readIndex)).toNat < src.length then
      some { s with producer := .idle }
    else some { s with producer := .copying src write 0 }
  | .copying src write i =>
    match src[i]? with
    | some x =>
      some
        { s with
          ring := s.ring.setSlot (s.ring.copySlot write src.length i) x
          producer := .copying src write (i + 1) }
    | none =>
      some
        { s with
          ring := { s.ring with writeIndex := write + UInt64.ofNat src.length }
          producer := .idle
          queue := (s.queue.write src).2
          accepted := s.accepted ++ src }

/-- The consumer's next step. -/
def consumerStep (s : RingRun T) : Option (RingRun T) :=
  match s.consumer with
  | .idle => none
  | .peekLoadRead call => some { s with consumer := .peekLoadWrite call s.ring.readIndex }
  | .peekLoadWrite call read =>
    let available := (s.ring.writeIndex - read).toNat
    if available ≤ call.offset then some { s with consumer := .peeked call [] }
    else
      some { s with consumer := .copying call read (min call.size (available - call.offset)) [] }
  | .copying call read count dst =>
    if dst.length < count then
      let slot := s.ring.copySlot (read + UInt64.ofNat call.offset) count dst.length
      some
        { s with consumer := .copying call read count (dst ++ (s.ring.storage[slot]?).toList) }
    else some { s with consumer := .peeked call dst }
  | .peeked call dst =>
    if call.thenDiscard then
      some { s with consumer := .discardLoadRead dst.length (some dst) }
    else some { s with consumer := .idle }
  | .discardLoadRead count copied =>
    some { s with consumer := .discardLoadWrite count s.ring.readIndex copied }
  | .discardLoadWrite count read copied =>
    some
      { s with
        consumer := .storing read (min count (s.ring.writeIndex - read).toNat) copied }
  | .storing read n _ =>
    some
      { s with
        ring := { s.ring with readIndex := read + UInt64.ofNat n }
        consumer := .idle
        queue := (s.queue.discard n).2
        consumed := s.consumed + n }

/-- One step. A call begins when its thread is in none. -/
def next (s : RingRun T) : RingAct T → Option (RingRun T)
  | .write src =>
    match s.producer with
    | .idle => some { s with producer := .loadWrite src }
    | _ => none
  | .producer => s.producerStep
  | .peek size offset =>
    match s.consumer with
    | .idle => some { s with consumer := .peekLoadRead (.ofPeek size offset) }
    | _ => none
  | .discard count =>
    match s.consumer with
    | .idle => some { s with consumer := .discardLoadRead count none }
    | _ => none
  | .read size =>
    match s.consumer with
    | .idle => some { s with consumer := .peekLoadRead (.ofRead size) }
    | _ => none
  | .consumer => s.consumerStep

end RingRun

/-- Every interleaving of the two threads on a ring. -/
def ringThreads (r : RingBuffer T) : Machine (RingRun T) (RingAct T) where
  init s := s = .start r
  step := RingRun.next

/-! ### What a step may do -/

namespace RingRun

/-- The slot of an element of the queue. -/
def itemSlot (s : RingRun T) (j : ℕ) : ℕ := (s.ring.readIndex.toNat + j) % s.ring.capacity

/-- Nothing has changed but where the threads are. -/
def Quiet (s t : RingRun T) : Prop :=
  t.ring = s.ring ∧ t.queue = s.queue ∧ t.accepted = s.accepted ∧ t.consumed = s.consumed

/-- What a step of the producer does to the queue. A write is refused exactly when the queue has no
room for it, and then nothing has happened. An element is copied to where no element of the queue
is. With the store of the index the queue takes the write. -/
def ProducerEffect (s t : RingRun T) : Prop :=
  match s.producer with
  | .loadRead src _ => Quiet s t ∧ (t.producer = .idle ↔ (s.queue.write src).1 = false)
  | .copying src write i =>
    if i < src.length then
      t.queue = s.queue ∧ t.accepted = s.accepted ∧
        ∀ j < s.queue.items.length, s.ring.copySlot write src.length i ≠ s.itemSlot j
    else s.queue.write src = (true, t.queue) ∧ t.accepted = s.accepted ++ src
  | _ => Quiet s t

/-- What a step of the consumer does to the queue. A peek asks for what the queue has when it loads
the write index. It copies the elements of the queue in order, from where they are. A discard takes
as many elements as it was asked for and the queue had then, and if it ends a read these are the
elements that were read. -/
def ConsumerEffect (s t : RingRun T) : Prop :=
  match s.consumer with
  | .peekLoadWrite call read =>
    Quiet s t ∧ t.consumer =
      if s.queue.items.length ≤ call.offset then .peeked call []
      else .copying call read (min call.size (s.queue.items.length - call.offset)) []
  | .copying call read count dst =>
    Quiet s t ∧
      if dst.length < count then
        (∃ j < s.queue.items.length,
          s.ring.copySlot (read + UInt64.ofNat call.offset) count dst.length = s.itemSlot j) ∧
        ∃ x, t.consumer = .copying call read count (dst ++ [x]) ∧
          dst ++ [x] <+: s.queue.items.drop call.offset
      else
        t.consumer = .peeked call dst ∧ dst.length = count ∧
          dst <+: s.queue.items.drop call.offset
  | .discardLoadWrite count read copied =>
    Quiet s t ∧ t.consumer = .storing read (min count s.queue.items.length) copied
  | .storing _ n copied =>
    s.queue.discard n = (n, t.queue) ∧ t.consumed = s.consumed + n ∧
      ∀ dst, copied = some dst → dst = s.queue.items.take n
  | _ => Quiet s t

/-- The ring stands for the queue before the step and after it, the queue is what was accepted less
what is gone, and the step did to it what it may. -/
structure Refines (s : RingRun T) (a : RingAct T) (t : RingRun T) : Prop where
  before : s.ring.Abstracts s.queue
  after : t.ring.Abstracts t.queue
  history : t.queue.Holds t.accepted t.consumed
  effect :
    match a with
    | .producer => ProducerEffect s t
    | .consumer => ConsumerEffect s t
    | _ => Quiet s t

/-! ### The invariant -/

/-- What the producer has loaded and copied so far. -/
def ProducerInv (s : RingRun T) : Prop :=
  match s.producer with
  | .loadRead _ write => write = s.ring.writeIndex
  | .copying src write i =>
    write = s.ring.writeIndex ∧ i ≤ src.length ∧
      s.queue.items.length + src.length ≤ s.ring.capacity ∧
      HoldsFrom s.ring.storage s.ring.readIndex.toNat (s.queue.items ++ src.take i)
  | _ => True

/-- What a read has copied is at the front of the queue. -/
def AtFront (q : BoundedQueue T) (count : ℕ) (copied : Option (List T)) : Prop :=
  ∀ dst, copied = some dst → count = dst.length ∧ dst <+: q.items

/-- What the consumer has loaded and copied so far. -/
def ConsumerInv (s : RingRun T) : Prop :=
  match s.consumer with
  | .peekLoadWrite _ read => read = s.ring.readIndex
  | .copying call read count dst =>
    read = s.ring.readIndex ∧ call.offset + count ≤ s.queue.items.length ∧ dst.length ≤ count ∧
      dst <+: s.queue.items.drop call.offset
  | .peeked call dst => dst <+: s.queue.items.drop call.offset
  | .discardLoadRead count copied => AtFront s.queue count copied
  | .discardLoadWrite count read copied =>
    read = s.ring.readIndex ∧ AtFront s.queue count copied
  | .storing read n copied =>
    read = s.ring.readIndex ∧ n ≤ s.queue.items.length ∧ AtFront s.queue n copied
  | _ => True

structure RingInv (s : RingRun T) : Prop where
  abstracts : s.ring.Abstracts s.queue
  history : s.queue.Holds s.accepted s.consumed
  producer : s.ProducerInv
  consumer : s.ConsumerInv

theorem ringInv_start {r : RingBuffer T} (hempty : r.writeIndex = r.readIndex) :
    RingInv (.start r) :=
  ⟨RingBuffer.abstracts_empty hempty, BoundedQueue.holds_of_items_nil rfl, trivial, trivial⟩

theorem prefix_drop {xs ys : List T} (h : xs <+: ys) (n : ℕ) : xs.drop n <+: ys.drop n := by
  obtain ⟨zs, rfl⟩ := h
  rw [List.drop_append]
  exact List.prefix_append _ _

variable {s t : RingRun T}

theorem ConsumerInv.grow (h : s.ConsumerInv) (hcon : t.consumer = s.consumer)
    (hread : t.ring.readIndex = s.ring.readIndex) (hgrow : s.queue.items <+: t.queue.items) :
    t.ConsumerInv := by
  have hlen := hgrow.length_le
  have hfront : ∀ {count : ℕ} {copied : Option (List T)}, AtFront s.queue count copied →
      AtFront t.queue count copied :=
    fun hf dst hdst => ⟨(hf dst hdst).1, (hf dst hdst).2.trans hgrow⟩
  rw [ConsumerInv] at h ⊢
  rw [hcon]
  cases hpc : s.consumer with
  | idle => trivial
  | peekLoadRead call => trivial
  | peekLoadWrite call read =>
    rw [hpc] at h
    exact h.trans hread.symm
  | copying call read count dst =>
    rw [hpc] at h
    obtain ⟨hr, hcount, hdst, hseen⟩ := h
    exact ⟨hr.trans hread.symm, Nat.le_trans hcount hlen, hdst, hseen.trans (prefix_drop hgrow _)⟩
  | peeked call dst =>
    rw [hpc] at h
    exact List.IsPrefix.trans h (prefix_drop hgrow _)
  | discardLoadRead count copied =>
    rw [hpc] at h
    exact hfront h
  | discardLoadWrite count read copied =>
    rw [hpc] at h
    exact ⟨h.1.trans hread.symm, hfront h.2⟩
  | storing read n copied =>
    rw [hpc] at h
    exact ⟨h.1.trans hread.symm, Nat.le_trans h.2.1 hlen, hfront h.2.2⟩

theorem copySlot_write {s : RingRun T} (h : s.ring.Abstracts s.queue) {n i : ℕ} (hi : i < n)
    (hroom : s.queue.items.length + n ≤ s.ring.capacity) :
    s.ring.copySlot s.ring.writeIndex n i = s.itemSlot (s.queue.items.length + i) := by
  have hlt : s.ring.slot s.ring.writeIndex < s.ring.capacity := by
    rw [h.slot_write]
    exact Nat.mod_lt _ s.ring.capacity_pos
  rw [RingBuffer.copySlot, partSlot_eq hlt (by omega) hi, h.slot_write, itemSlot, Nat.mod_add_mod,
    Nat.add_assoc]

/-- Places of the circle that are less than a turn apart are different. -/
theorem itemSlot_ne (s : RingRun T) {j k : ℕ} (hlt : j < k) (hturn : k < s.ring.capacity) :
    s.itemSlot k ≠ s.itemSlot j := by
  intro heq
  have hdist := Nat.sub_mod_eq_zero_of_mod_eq heq
  rw [Nat.add_sub_add_left, Nat.mod_eq_of_lt (by omega)] at hdist
  omega

theorem RingInv.producer_step (h : RingInv s) (hstep : s.producerStep = some t) :
    RingInv t ∧ ProducerEffect s t := by
  obtain ⟨habs, hhist, hprod, hcon⟩ := h
  rw [producerStep] at hstep
  rw [ProducerInv] at hprod
  rw [ProducerEffect]
  cases hpc : s.producer with
  | idle =>
    rw [hpc] at hstep
    cases hstep
  | loadWrite src =>
    rw [hpc] at hstep
    cases hstep
    exact ⟨⟨habs, hhist, rfl, hcon⟩, rfl, rfl, rfl, rfl⟩
  | loadRead src write =>
    rw [hpc] at hstep hprod
    dsimp only at hstep hprod ⊢
    rw [hprod, habs.free] at hstep
    have hlen := habs.length_le
    have hwrite := s.queue.write_fst_eq_false_iff src
    rw [habs.capacity] at hwrite
    split at hstep
    · rename_i hfull
      cases hstep
      exact ⟨⟨habs, hhist, trivial, hcon⟩, ⟨rfl, rfl, rfl, rfl⟩, iff_of_true rfl (hwrite.mpr (by omega))⟩
    · rename_i hroom
      cases hstep
      have hfits : s.queue.items.length + src.length ≤ s.ring.capacity := by omega
      refine ⟨⟨habs, hhist, ⟨rfl, Nat.zero_le _, hfits, ?_⟩, hcon⟩, ⟨rfl, rfl, rfl, rfl⟩, ?_⟩
      · rw [List.take_zero, List.append_nil]
        exact habs.holds
      · exact iff_of_false (fun hidle => by cases hidle) fun hno => by
          have := hwrite.mp hno
          omega
  | copying src write i =>
    rw [hpc] at hstep hprod
    dsimp only at hstep hprod ⊢
    obtain ⟨rfl, hi, hroom, hholds⟩ := hprod
    split at hstep
    · rename_i x hx
      cases hstep
      obtain ⟨hlt, rfl⟩ := List.getElem?_eq_some_iff.mp hx
      have hlen : (s.queue.items ++ src.take i).length = s.queue.items.length + i := by
        rw [List.length_append, List.length_take, Nat.min_eq_left hi]
      have hslot := copySlot_write habs hlt hroom
      have hturn : s.queue.items.length + i < s.ring.storage.length :=
        Nat.lt_of_lt_of_le (Nat.add_lt_add_left hlt _) hroom
      have hnext := hholds.concat (by rwa [hlen]) src[i]
      have hput : (s.ring.readIndex.toNat + (s.queue.items ++ src.take i).length) %
          s.ring.storage.length = s.ring.copySlot s.ring.writeIndex src.length i := by
        rw [hslot, hlen]
        rfl
      rw [hput, List.append_assoc, ← List.take_succ_eq_append_getElem hlt] at hnext
      have hcapacity : (s.ring.setSlot (s.ring.copySlot s.ring.writeIndex src.length i)
          src[i]).capacity = s.ring.capacity := List.length_set
      rw [if_pos hlt]
      refine ⟨⟨⟨habs.capacity.trans hcapacity.symm, habs.available, ?_⟩, hhist,
        ⟨rfl, hlt, ?_, hnext⟩, hcon.grow rfl rfl (List.prefix_refl _)⟩, rfl, rfl, fun j hj => ?_⟩
      · exact (HoldsFrom.append_iff.mp hnext).1
      · rwa [hcapacity]
      · rw [hslot]
        exact s.itemSlot_ne (by omega) hturn
    · rename_i hnone
      cases hstep
      have hend : src.length ≤ i := List.getElem?_eq_none_iff.mp hnone
      have hfits : s.queue.items.length + src.length ≤ s.queue.capacity := by
        rwa [habs.capacity]
      obtain ⟨hok, hitems, hcap⟩ := BoundedQueue.write_of_le hfits
      have hle := s.ring.capacity_le
      rw [List.take_of_length_le hend, ← hitems] at hholds
      rw [if_neg (by omega)]
      have hwritten := hhist.write src
      rw [hok, if_pos rfl] at hwritten
      refine ⟨⟨⟨hcap.trans habs.capacity, ?_, hholds⟩, hwritten, trivial, ?_⟩, ?_, rfl⟩
      · rw [hitems, List.length_append]
        exact RingBuffer.available_write habs.available (by omega)
      · refine hcon.grow rfl rfl ?_
        rw [hitems]
        exact List.prefix_append _ _
      · exact Prod.ext hok rfl

theorem copySlot_read {s : RingRun T} {offset count j : ℕ} (hj : j < count)
    (hcount : count ≤ s.ring.capacity) :
    s.ring.copySlot (s.ring.readIndex + UInt64.ofNat offset) count j = s.itemSlot (offset + j) := by
  have hlt : s.ring.slot (s.ring.readIndex + UInt64.ofNat offset) < s.ring.capacity := by
    rw [RingBuffer.slot_add]
    exact Nat.mod_lt _ s.ring.capacity_pos
  rw [RingBuffer.copySlot, partSlot_eq hlt hcount hj, RingBuffer.slot_add, itemSlot,
    Nat.mod_add_mod, Nat.add_assoc]

theorem prefix_concat {xs ys : List T} {x : T} (h : xs <+: ys) (hx : ys[xs.length]? = some x) :
    xs ++ [x] <+: ys := by
  obtain ⟨zs, rfl⟩ := h
  rw [List.getElem?_append_right (Nat.le_refl _), Nat.sub_self] at hx
  cases zs with
  | nil => cases hx
  | cons z zs =>
    cases hx
    exact ⟨zs, by rw [List.append_assoc, List.singleton_append]⟩

theorem ProducerInv.shrink (h : s.ProducerInv) {n : ℕ}
    (hn : n ≤ s.queue.items.length) (hprod : t.producer = s.producer)
    (hstorage : t.ring.storage = s.ring.storage) (hwrite : t.ring.writeIndex = s.ring.writeIndex)
    (hread : t.ring.readIndex = s.ring.readIndex + UInt64.ofNat n)
    (hitems : t.queue.items = s.queue.items.drop n) : t.ProducerInv := by
  rw [ProducerInv] at h ⊢
  rw [hprod]
  cases hpc : s.producer with
  | idle => trivial
  | loadWrite src => trivial
  | loadRead src write =>
    rw [hpc] at h
    exact h.trans hwrite.symm
  | copying src write i =>
    rw [hpc] at h
    obtain ⟨hw, hi, hroom, hholds⟩ := h
    refine ⟨hw.trans hwrite.symm, hi, ?_, ?_⟩
    · rw [hitems, List.length_drop, RingBuffer.capacity, hstorage]
      exact Nat.le_trans (by omega) hroom
    · have hdrop := hholds.drop (by rw [List.length_append]; omega : n ≤ _)
      rw [List.drop_append_of_le_length hn] at hdrop
      rw [hitems, hstorage, hread]
      refine hdrop.congr_start ?_
      exact (s.ring.slot_eq _).symm.trans (s.ring.slot_add _ _)

theorem RingInv.consumer_step (h : RingInv s) (hstep : s.consumerStep = some t) :
    RingInv t ∧ ConsumerEffect s t := by
  obtain ⟨habs, hhist, hprod, hcon⟩ := h
  have hlen := habs.length_le
  rw [consumerStep] at hstep
  rw [ConsumerInv] at hcon
  rw [ConsumerEffect]
  cases hpc : s.consumer with
  | idle =>
    rw [hpc] at hstep
    cases hstep
  | peekLoadRead call =>
    rw [hpc] at hstep
    cases hstep
    exact ⟨⟨habs, hhist, hprod, rfl⟩, rfl, rfl, rfl, rfl⟩
  | peekLoadWrite call read =>
    rw [hpc] at hstep hcon
    dsimp only at hstep hcon ⊢
    rw [hcon, habs.available] at hstep
    split at hstep
    · rename_i hnone
      cases hstep
      rw [if_pos hnone]
      exact ⟨⟨habs, hhist, hprod, List.nil_prefix⟩, ⟨rfl, rfl, rfl, rfl⟩, rfl⟩
    · rename_i hsome
      cases hstep
      rw [if_neg hsome, hcon]
      have hcount : call.offset + min call.size (s.queue.items.length - call.offset) ≤
          s.queue.items.length := by omega
      exact ⟨⟨habs, hhist, hprod, rfl, hcount, Nat.zero_le _, List.nil_prefix⟩,
        ⟨rfl, rfl, rfl, rfl⟩, rfl⟩
  | copying call read count dst =>
    rw [hpc] at hstep hcon
    dsimp only at hstep hcon ⊢
    obtain ⟨rfl, hcount, hdst, hseen⟩ := hcon
    split at hstep
    · rename_i hmore
      cases hstep
      have hslot : s.ring.copySlot (s.ring.readIndex + UInt64.ofNat call.offset) count dst.length =
          s.itemSlot (call.offset + dst.length) := copySlot_read hmore (by omega)
      have hin : call.offset + dst.length < s.queue.items.length := by omega
      have helem : s.ring.storage[s.itemSlot (call.offset + dst.length)]? =
          some s.queue.items[call.offset + dst.length] := by
        rw [List.getElem?_eq_getElem hin |>.symm]
        exact habs.holds _ hin
      have hmore' : dst ++ [s.queue.items[call.offset + dst.length]] <+:
          s.queue.items.drop call.offset := by
        refine prefix_concat hseen ?_
        rw [List.getElem?_drop, List.getElem?_eq_getElem hin]
      rw [if_pos hmore, hslot, helem]
      refine ⟨⟨habs, hhist, hprod, rfl, hcount, ?_, hmore'⟩, ⟨rfl, rfl, rfl, rfl⟩, ?_, ?_⟩
      · rw [Option.toList_some, List.length_append, List.length_singleton]
        exact hmore
      · exact ⟨_, hin, rfl⟩
      · exact ⟨_, rfl, hmore'⟩
    · rename_i hall
      cases hstep
      rw [if_neg hall]
      exact ⟨⟨habs, hhist, hprod, hseen⟩, ⟨rfl, rfl, rfl, rfl⟩, rfl, by omega, hseen⟩
  | peeked call dst =>
    rw [hpc] at hstep hcon
    dsimp only at hstep hcon ⊢
    split at hstep
    · rename_i hread
      cases hstep
      refine ⟨⟨habs, hhist, hprod, ?_⟩, rfl, rfl, rfl, rfl⟩
      rintro _ ⟨⟩
      rw [call.offset_eq hread, List.drop_zero] at hcon
      exact ⟨rfl, hcon⟩
    · cases hstep
      exact ⟨⟨habs, hhist, hprod, trivial⟩, rfl, rfl, rfl, rfl⟩
  | discardLoadRead count copied =>
    rw [hpc] at hstep hcon
    cases hstep
    exact ⟨⟨habs, hhist, hprod, rfl, hcon⟩, rfl, rfl, rfl, rfl⟩
  | discardLoadWrite count read copied =>
    rw [hpc] at hstep hcon
    dsimp only at hstep hcon ⊢
    obtain ⟨rfl, hfront⟩ := hcon
    rw [habs.available] at hstep
    cases hstep
    refine ⟨⟨habs, hhist, hprod, rfl, Nat.min_le_right _ _, fun dst hdst => ?_⟩,
      ⟨rfl, rfl, rfl, rfl⟩, rfl⟩
    obtain ⟨hsize, hprefix⟩ := hfront dst hdst
    exact ⟨by rw [hsize, Nat.min_eq_left hprefix.length_le], hprefix⟩
  | storing read n copied =>
    rw [hpc] at hstep hcon
    dsimp only at hstep hcon ⊢
    obtain ⟨rfl, hn, hfront⟩ := hcon
    cases hstep
    have hgone := hhist.discard n
    rw [BoundedQueue.discard_fst, Nat.min_eq_left hn] at hgone
    obtain ⟨-, habs'⟩ := habs.discard n
    rw [RingBuffer.discard, habs.available, Nat.min_eq_left hn] at habs'
    refine ⟨⟨habs', hgone, hprod.shrink hn rfl rfl rfl rfl rfl, trivial⟩, ?_, rfl, fun dst hdst => ?_⟩
    · exact Prod.ext (Nat.min_eq_left hn) rfl
    · obtain ⟨hsize, hprefix⟩ := hfront dst hdst
      rw [hsize]
      exact List.prefix_iff_eq_take.mp hprefix

/-- Where an action of either thread leads. -/
theorem RingInv.next {a : RingAct T} (h : RingInv s) (hstep : s.next a = some t) :
    RingInv t ∧ Refines s a t := by
  rw [RingRun.next.eq_def] at hstep
  cases a with
  | producer =>
    obtain ⟨ht, heffect⟩ := h.producer_step hstep
    exact ⟨ht, h.abstracts, ht.abstracts, ht.history, heffect⟩
  | consumer =>
    obtain ⟨ht, heffect⟩ := h.consumer_step hstep
    exact ⟨ht, h.abstracts, ht.abstracts, ht.history, heffect⟩
  | write src =>
    dsimp only at hstep
    split at hstep
    · cases hstep
      have ht : RingInv { s with producer := .loadWrite src } :=
        ⟨h.abstracts, h.history, trivial, h.consumer⟩
      exact ⟨ht, h.abstracts, ht.abstracts, ht.history, rfl, rfl, rfl, rfl⟩
    · cases hstep
  | peek size offset =>
    dsimp only at hstep
    split at hstep
    · cases hstep
      have ht : RingInv { s with consumer := .peekLoadRead (.ofPeek size offset) } :=
        ⟨h.abstracts, h.history, h.producer, trivial⟩
      exact ⟨ht, h.abstracts, ht.abstracts, ht.history, rfl, rfl, rfl, rfl⟩
    · cases hstep
  | discard count =>
    dsimp only at hstep
    split at hstep
    · cases hstep
      have ht : RingInv { s with consumer := .discardLoadRead count none } := by
        refine ⟨h.abstracts, h.history, h.producer, ?_⟩
        rintro dst ⟨⟩
      exact ⟨ht, h.abstracts, ht.abstracts, ht.history, rfl, rfl, rfl, rfl⟩
    · cases hstep
  | read size =>
    dsimp only at hstep
    split at hstep
    · cases hstep
      have ht : RingInv { s with consumer := .peekLoadRead (.ofRead size) } :=
        ⟨h.abstracts, h.history, h.producer, trivial⟩
      exact ⟨ht, h.abstracts, ht.abstracts, ht.history, rfl, rfl, rfl, rfl⟩
    · cases hstep

end RingRun

/-- **Headline.** On a ring that is empty to begin with, wherever its indices stand: any sequence of
calls returns what a queue of its capacity returns, a refused write changes nothing, and in every
interleaving of a producer and a consumer the ring stands for a queue that takes each accepted
write whole and in order, and gives up its elements in order and once. -/
theorem ring_refines_fifo {r : RingBuffer T} (hempty : r.writeIndex = r.readIndex) :
    (∀ calls : List (RingBuffer.Call T),
        r.results calls = RingBuffer.queueResults (.empty r.capacity) calls) ∧
      (∀ (s : RingBuffer T) (src : List T), (s.write src).1 = false → (s.write src).2 = s) ∧
      ∀ acts : List (RingAct T),
        (ringThreads r).AlongSteps RingRun.Refines (.start r) acts := by
  refine ⟨RingBuffer.results_eq hempty, fun s src => RingBuffer.write_of_refused, fun acts => ?_⟩
  exact Machine.AlongSteps.of_preserved RingRun.RingInv (fun s a t h hstep => h.next hstep)
    (RingRun.ringInv_start hempty) acts

/-- A ring of four whose indices are about to wrap. -/
def wrappingRing : RingBuffer ℕ where
  storage := [0, 0, 0, 0]
  writeIndex := 0xFFFFFFFFFFFFFFFE
  readIndex := 0xFFFFFFFFFFFFFFFE
  capacity_eq := ⟨2, by decide, rfl⟩

/-- A write that straddles the end, and a peek that starts before the write is stored. -/
def straddlingActs : List (RingAct ℕ) :=
  [.write [1, 2, 3], .producer, .producer, .producer, .read 3, .consumer, .producer, .producer,
    .consumer, .producer, .consumer, .consumer]

theorem ring_refines_fifo_wrapping :
    wrappingRing.results [.write [1, 2, 3], .write [4, 5], .peek 2 1, .read 3] =
        [.written true, .written false, .copied [2, 3], .copied [1, 2, 3]] ∧
      (ringThreads wrappingRing).AlongSteps RingRun.Refines (.start wrappingRing) straddlingActs :=
  ⟨((ring_refines_fifo (r := wrappingRing) rfl).1 _).trans (by decide),
    (ring_refines_fifo (r := wrappingRing) rfl).2.2 straddlingActs⟩

end RtaTool
