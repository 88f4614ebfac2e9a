import Mathlib.Algebra.Group.Nat.Defs
import RtaTool.Lib.BoundedQueue
import RtaTool.Lib.CircularBuffer
import RtaTool.Lib.Transducer

/-!
# The ring buffer

`RingBuffer` over elements of any type. The two indices only ever grow, modulo 2 ^ 64, and the mask
is applied where the storage is accessed, so the capacity has to be a power of two. A write or a
peek copies in two parts where it runs over the end of the storage.

This file reads each member function as if nothing else ran, and shows that the ring is then a
`BoundedQueue`. What holds of a producer and a consumer that interrupt each other is in
`RingBufferThreads`.

## Main definitions

* `RingBuffer`, `write`, `peek`, `discard`, `read`
* `RingBuffer.Abstracts` -- the queue a ring stands for
* `RingBuffer.Holding` -- its elements

## Main results

* `Abstracts.write`, `Abstracts.peek_eq`, `Abstracts.discard`
* `results_eq` -- any sequence of calls has the results of a queue
-/

namespace RtaTool

variable {T : Type}

/-- `RingBuffer<T>`; `mask_` is `capacity() - 1`. -/
structure RingBuffer (T : Type) where
  storage : List T
  writeIndex : UInt64
  readIndex : UInt64
  capacity_eq : ∃ k < 64, storage.length = 2 ^ k

namespace RingBuffer

/-- `capacity()`. -/
def capacity (r : RingBuffer T) : ℕ := r.storage.length

/-- `mask_`. -/
def mask (r : RingBuffer T) : UInt64 := UInt64.ofNat (r.capacity - 1)

theorem exists_of_nextPowerOfTwo {n : ℕ} (h : n.nextPowerOfTwo ≤ 2 ^ 63) (x : T) :
    ∃ k < 64, (List.replicate n.nextPowerOfTwo x).length = 2 ^ k := by
  obtain ⟨k, hk⟩ := Nat.isPowerOfTwo_nextPowerOfTwo n
  refine ⟨k, ?_, by rw [List.length_replicate, hk]⟩
  rw [hk] at h
  exact Nat.lt_succ_of_le ((Nat.pow_le_pow_iff_right (by decide)).mp h)

/-- The constructor. It throws on zero, and there is no power of two above 2 ^ 63. -/
def make [Inhabited T] (minCapacity : ℕ) : Option (RingBuffer T) :=
  if minCapacity = 0 then none
  else if h : minCapacity.nextPowerOfTwo ≤ 2 ^ 63 then
    some
      { storage := List.replicate minCapacity.nextPowerOfTwo default
        writeIndex := 0
        readIndex := 0
        capacity_eq := exists_of_nextPowerOfTwo h default }
  else none

/-- `availableToRead()`. -/
def availableToRead (r : RingBuffer T) : UInt64 := r.writeIndex - r.readIndex

/-- `availableToWrite()`. -/
def availableToWrite (r : RingBuffer T) : UInt64 := UInt64.ofNat r.capacity - r.availableToRead

/-- The slot of an index. -/
def slot (r : RingBuffer T) (index : UInt64) : ℕ := (index &&& r.mask).toNat

/-- The ring with `src` copied in behind the index `write`, in two parts. -/
def copyFrom (r : RingBuffer T) (write : UInt64) (src : List T) : RingBuffer T :=
  let start := r.slot write
  let first := min src.length (r.capacity - start)
  { r with
    storage := copyInto (copyInto r.storage start (src.take first)) 0 (src.drop first)
    capacity_eq := by
      rw [length_copyInto, length_copyInto]
      exact r.capacity_eq }

/-- `write(src)`: all of it, or nothing. -/
def write (r : RingBuffer T) (src : List T) : Bool × RingBuffer T :=
  if (UInt64.ofNat r.capacity - (r.writeIndex - r.readIndex)).toNat < src.length then (false, r)
  else
    (true, { r.copyFrom r.writeIndex src with
      writeIndex := r.writeIndex + UInt64.ofNat src.length })

/-- `peek(dst, offset)` for a `dst` of `size` elements: the ones it copies. -/
def peek (r : RingBuffer T) (size offset : ℕ) : List T :=
  let available := (r.writeIndex - r.readIndex).toNat
  if available ≤ offset then []
  else
    let count := min size (available - offset)
    let start := r.slot (r.readIndex + UInt64.ofNat offset)
    let first := min count (r.capacity - start)
    (r.storage.drop start).take first ++ r.storage.take (count - first)

/-- `discard(count)`. -/
def discard (r : RingBuffer T) (count : ℕ) : ℕ × RingBuffer T :=
  let n := min count (r.writeIndex - r.readIndex).toNat
  (n, { r with readIndex := r.readIndex + UInt64.ofNat n })

/-- `reset()`. -/
def reset (r : RingBuffer T) : RingBuffer T := { r with writeIndex := 0, readIndex := 0 }

/-- `read(dst)` for a `dst` of `size` elements. -/
def read (r : RingBuffer T) (size : ℕ) : List T × RingBuffer T :=
  let dst := r.peek size 0
  (dst, (r.discard dst.length).2)

/-! ### Indices -/

section

variable (r : RingBuffer T)

theorem capacity_pos : 0 < r.capacity := by
  obtain ⟨k, -, hk⟩ := r.capacity_eq
  rw [capacity, hk]
  exact Nat.two_pow_pos k

theorem capacity_le : r.capacity ≤ 2 ^ 63 := by
  obtain ⟨k, hlt, hk⟩ := r.capacity_eq
  rw [capacity, hk]
  exact Nat.pow_le_pow_right (by decide) (Nat.le_of_lt_succ hlt)

theorem capacity_dvd : r.capacity ∣ 2 ^ 64 := by
  obtain ⟨k, hlt, hk⟩ := r.capacity_eq
  rw [capacity, hk]
  exact Nat.pow_dvd_pow 2 (Nat.le_of_lt hlt)

/-- Masking is going round. -/
theorem slot_eq (index : UInt64) : r.slot index = index.toNat % r.capacity := by
  obtain ⟨k, hlt, hk⟩ := r.capacity_eq
  have hcap : r.capacity = 2 ^ k := hk
  have hpow : 2 ^ k ≤ 2 ^ 63 := Nat.pow_le_pow_right (by decide) (Nat.le_of_lt_succ hlt)
  rw [slot, mask, UInt64.toNat_and, UInt64.toNat_ofNat', hcap, Nat.mod_eq_of_lt (by omega),
    Nat.and_two_pow_sub_one_eq_mod]

theorem slot_add (index : UInt64) (n : ℕ) :
    r.slot (index + UInt64.ofNat n) = (index.toNat + n) % r.capacity := by
  rw [slot_eq, UInt64.toNat_add, UInt64.toNat_ofNat', Nat.mod_mod_of_dvd _ r.capacity_dvd,
    Nat.add_mod, Nat.mod_mod_of_dvd _ r.capacity_dvd, ← Nat.add_mod]

end

/-- The distance of two indices is right as long as it fits. -/
theorem toNat_sub_ofNat {a b : ℕ} (hle : b ≤ a) (hlt : a - b < 2 ^ 64) :
    (UInt64.ofNat a - UInt64.ofNat b).toNat = a - b := by
  rw [UInt64.toNat_sub, UInt64.toNat_ofNat', UInt64.toNat_ofNat']
  omega

/-! ### The queue a ring stands for -/

/-- A ring stands for a queue: it has its capacity, its indices are as far apart as the queue is
long, and its storage holds the queue from the read index on. -/
structure Abstracts (r : RingBuffer T) (q : BoundedQueue T) : Prop where
  capacity : q.capacity = r.capacity
  available : (r.writeIndex - r.readIndex).toNat = q.items.length
  holds : HoldsFrom r.storage r.readIndex.toNat q.items

variable {q : BoundedQueue T}

variable {r : RingBuffer T}

theorem Abstracts.length_le (h : r.Abstracts q) :
    q.items.length ≤ r.capacity := h.capacity ▸ q.length_le

/-- A ring whose indices are equal is empty. -/
theorem abstracts_empty (h : r.writeIndex = r.readIndex) :
    r.Abstracts (.empty r.capacity) :=
  ⟨rfl, by rw [h, UInt64.sub_self]; rfl, .nil _ _⟩

/-- A new ring is one of these. -/
theorem writeIndex_eq_of_make [Inhabited T] {n : ℕ} (h : make n = some r) :
    r.writeIndex = r.readIndex := by
  rw [make] at h
  split at h
  · cases h
  · split at h
    · cases h
      rfl
    · cases h

theorem Abstracts.free (h : r.Abstracts q) :
    (UInt64.ofNat r.capacity - (r.writeIndex - r.readIndex)).toNat =
      r.capacity - q.items.length := by
  have hle := r.capacity_le
  have hlen := h.length_le
  have hsub : r.writeIndex - r.readIndex = UInt64.ofNat q.items.length := by
    rw [← h.available, UInt64.ofNat_toNat]
  rw [hsub, toNat_sub_ofNat hlen (by omega)]

theorem Abstracts.slot_write (h : r.Abstracts q) :
    r.slot r.writeIndex = (r.readIndex.toNat + q.items.length) % r.capacity := by
  have hsum : r.writeIndex = r.readIndex + UInt64.ofNat q.items.length := by
    rw [← h.available, UInt64.ofNat_toNat, UInt64.add_comm, UInt64.sub_add_cancel]
  rw [hsum, slot_add]

@[simp] theorem capacity_copyFrom (r : RingBuffer T) (write : UInt64) (src : List T) :
    (r.copyFrom write src).capacity = r.capacity := by
  rw [capacity, copyFrom]
  exact (length_copyInto _ _ _).trans (length_copyInto _ _ _)

theorem available_write {a b : UInt64} {n k : ℕ} (h : (a - b).toNat = n) (hlt : n + k < 2 ^ 64) :
    (a + UInt64.ofNat k - b).toNat = n + k := by
  rw [UInt64.toNat_sub] at h
  rw [UInt64.toNat_sub, UInt64.toNat_add, UInt64.toNat_ofNat']
  omega

theorem available_discard {a b : UInt64} {n k : ℕ} (h : (a - b).toNat = n) (hle : k ≤ n) :
    (a - (b + UInt64.ofNat k)).toNat = n - k := by
  have ha := a.toNat_lt
  have hb := b.toNat_lt
  rw [UInt64.toNat_sub] at h
  rw [UInt64.toNat_sub, UInt64.toNat_add, UInt64.toNat_ofNat']
  omega

theorem Abstracts.write (h : r.Abstracts q) (src : List T) :
    (r.write src).1 = (q.write src).1 ∧ (r.write src).2.Abstracts (q.write src).2 := by
  have hlen := h.length_le
  have hle := r.capacity_le
  rw [RingBuffer.write, BoundedQueue.write, h.free]
  split
  · rename_i hfull
    rw [dif_neg (by rw [h.capacity]; omega)]
    exact ⟨rfl, h⟩
  · rename_i hroom
    rw [dif_pos (by rw [h.capacity]; omega)]
    refine ⟨rfl, ⟨?_, ?_, ?_⟩⟩
    · exact h.capacity.trans (r.capacity_copyFrom r.writeIndex src).symm
    · exact (available_write h.available (by omega)).trans List.length_append.symm
    · exact h.holds.write_parts src h.slot_write r.capacity_pos (by
        show q.items.length + src.length ≤ r.capacity
        omega)

theorem write_of_refused {src : List T} (h : (r.write src).1 = false) :
    (r.write src).2 = r := by
  rw [RingBuffer.write] at h ⊢
  split at h
  · rename_i hfull
    rw [if_pos hfull]
  · cases h

theorem Abstracts.peek_eq (h : r.Abstracts q)
    (size offset : ℕ) : r.peek size offset = (q.items.drop offset).take size := by
  have hlen := h.length_le
  rw [peek, h.available]
  dsimp only
  split
  · rename_i hnone
    rw [List.drop_eq_nil_of_le hnone, List.take_nil]
  · rename_i hsome
    have hheld : HoldsFrom r.storage (r.slot (r.readIndex + UInt64.ofNat offset))
        ((q.items.drop offset).take size) := by
      refine ((h.holds.drop (Nat.le_of_not_le hsome)).take size).congr_start ?_
      rw [slot_add]
      exact Nat.mod_mod _ _
    have hcount : ((q.items.drop offset).take size).length = min size (q.items.length - offset) := by
      rw [List.length_take, List.length_drop]
    have hparts := hheld.read_parts (by
        rw [slot_add]
        exact Nat.mod_lt _ r.capacity_pos) (by
        rw [hcount]
        show _ ≤ r.capacity
        omega)
    rw [hcount] at hparts
    exact hparts

theorem Abstracts.discard (h : r.Abstracts q) (count : ℕ) :
    (r.discard count).1 = (q.discard count).1 ∧ (r.discard count).2.Abstracts (q.discard count).2 := by
  rw [RingBuffer.discard, h.available]
  refine ⟨rfl, ⟨h.capacity, ?_, ?_⟩⟩
  · rw [BoundedQueue.items_discard, List.length_drop]
    dsimp only
    rw [available_discard h.available (Nat.min_le_right _ _)]
    omega
  · rw [BoundedQueue.items_discard, ← drop_min_length]
    refine (h.holds.drop (Nat.min_le_right _ _)).congr_start ?_
    exact (r.slot_eq _).symm.trans (r.slot_add _ _)

theorem Abstracts.read (h : r.Abstracts q) (size : ℕ) :
    (r.read size).1 = q.peek size ∧ (r.read size).2.Abstracts (q.discard size).2 := by
  have hpeek : r.peek size 0 = q.peek size := h.peek_eq size 0
  refine ⟨hpeek, ?_⟩
  have hlen : (q.peek size).length = min size q.items.length := List.length_take
  obtain ⟨-, hcapacity, havailable, hholds⟩ := h.discard (q.peek size).length
  rw [BoundedQueue.items_discard, hlen, drop_min_length] at havailable hholds
  rw [RingBuffer.read, hpeek]
  refine ⟨hcapacity, ?_, ?_⟩
  · rw [hlen]
    exact havailable
  · rw [hlen]
    exact hholds

/-! ### Sequences of calls -/

/-- A call. -/
inductive Call (T : Type)
  | write (src : List T)
  | peek (size offset : ℕ)
  | discard (count : ℕ)
  | read (size : ℕ)

/-- What a call returns; of a span it was given to fill, what it filled in. -/
inductive Result (T : Type)
  | written (ok : Bool)
  | copied (dst : List T)
  | discarded (n : ℕ)
  deriving DecidableEq

/-- A call on a ring. -/
def call (r : RingBuffer T) : Call T → Result T × RingBuffer T
  | .write src => (.written (r.write src).1, (r.write src).2)
  | .peek size offset => (.copied (r.peek size offset), r)
  | .discard count => (.discarded (r.discard count).1, (r.discard count).2)
  | .read size => (.copied (r.read size).1, (r.read size).2)

/-- The same call on a queue. -/
def callQueue (q : BoundedQueue T) : Call T → Result T × BoundedQueue T
  | .write src => (.written (q.write src).1, (q.write src).2)
  | .peek size offset => (.copied ((q.items.drop offset).take size), q)
  | .discard count => (.discarded (q.discard count).1, (q.discard count).2)
  | .read size => (.copied (q.peek size), (q.discard size).2)

/-- The results of a sequence of calls on a ring. -/
def results (r : RingBuffer T) (calls : List (Call T)) : List (Result T) :=
  Transducer.emitted (fun r c => (r.call c).2) (fun r c => [(r.call c).1]) r calls

/-- The results of the same calls on a queue. -/
def queueResults (q : BoundedQueue T) (calls : List (Call T)) : List (Result T) :=
  Transducer.emitted (fun q c => (callQueue q c).2) (fun q c => [(callQueue q c).1]) q calls

theorem Abstracts.call (h : r.Abstracts q) (c : Call T) :
    (r.call c).2.Abstracts (callQueue q c).2 ∧ (r.call c).1 = (callQueue q c).1 := by
  cases c with
  | write src => exact ⟨(h.write src).2, congrArg Result.written (h.write src).1⟩
  | peek size offset => exact ⟨h, congrArg Result.copied (h.peek_eq size offset)⟩
  | discard count => exact ⟨(h.discard count).2, congrArg Result.discarded (h.discard count).1⟩
  | read size => exact ⟨(h.read size).2, congrArg Result.copied (h.read size).1⟩

/-- Whatever is called in whatever order, a ring that is empty to begin with returns what the queue
returns. -/
theorem results_eq (hempty : r.writeIndex = r.readIndex) (calls : List (Call T)) :
    r.results calls = queueResults (.empty r.capacity) calls := by
  refine Transducer.emitted_eq_of_rel Abstracts ?_ (abstracts_empty hempty) calls
  intro r q c h
  obtain ⟨habs, hresult⟩ := h.call c
  exact ⟨habs, congrArg ([·]) hresult⟩

/-! ### What a ring holds -/

/-- The ring stands for a queue of just these elements. -/
def Holding (r : RingBuffer T) (xs : List T) : Prop := ∃ q, r.Abstracts q ∧ q.items = xs

namespace Holding

variable {r : RingBuffer T} {xs : List T}

theorem reset (r : RingBuffer T) : r.reset.Holding [] :=
  ⟨.empty r.reset.capacity, abstracts_empty rfl, rfl⟩

theorem of_make [Inhabited T] {n : ℕ} (h : make n = some r) : r.Holding [] :=
  ⟨.empty r.capacity, abstracts_empty (writeIndex_eq_of_make h), rfl⟩

section

variable (h : r.Holding xs)

include h

theorem length_le : xs.length ≤ r.capacity := by
  obtain ⟨q, hq, rfl⟩ := h
  exact hq.length_le

theorem availableToRead : r.availableToRead.toNat = xs.length := by
  obtain ⟨q, hq, rfl⟩ := h
  exact hq.available

theorem availableToWrite :
    r.availableToWrite.toNat = r.capacity - xs.length := by
  obtain ⟨q, hq, rfl⟩ := h
  exact hq.free

theorem peek (size : ℕ) : r.peek size 0 = xs.take size := by
  obtain ⟨q, hq, rfl⟩ := h
  exact hq.peek_eq size 0

theorem write {src : List T} (hfits : xs.length + src.length ≤ r.capacity) :
    (r.write src).2.Holding (xs ++ src) ∧ (r.write src).2.capacity = r.capacity := by
  obtain ⟨q, hq, rfl⟩ := h
  obtain ⟨-, hwritten⟩ := hq.write src
  obtain ⟨-, hitems, hcapacity⟩ := BoundedQueue.write_of_le (hq.capacity.symm ▸ hfits)
  exact ⟨⟨_, hwritten, hitems⟩, hwritten.capacity.symm.trans (hcapacity.trans hq.capacity)⟩

theorem discard (count : ℕ) :
    (r.discard count).2.Holding (xs.drop count) ∧ (r.discard count).2.capacity = r.capacity := by
  obtain ⟨q, hq, rfl⟩ := h
  exact ⟨⟨_, (hq.discard count).2, rfl⟩, rfl⟩

end

end Holding

section

-- the loop of `Nat.nextPowerOfTwo` has no lemma that says it reaches its argument
open private Nat.nextPowerOfTwo.go from Init.Data.Nat.Power2.Basic

theorem le_nextPowerOfTwo (n : ℕ) : n ≤ n.nextPowerOfTwo := by
  have hgo : ∀ power h, n ≤ Nat.nextPowerOfTwo.go n power h := by
    intro power h
    fun_induction Nat.nextPowerOfTwo.go n power h with
    | case1 power h hlt ih => exact ih
    | case2 power h hge => exact Nat.le_of_not_lt hge
  exact hgo 1 (by decide)

theorem nextPowerOfTwo_le {n k : ℕ} (h : n ≤ 2 ^ k) : n.nextPowerOfTwo ≤ 2 ^ k := by
  have hgo : ∀ power hpos, power.isPowerOfTwo → power ≤ 2 ^ k →
      Nat.nextPowerOfTwo.go n power hpos ≤ 2 ^ k := by
    intro power hpos
    fun_induction Nat.nextPowerOfTwo.go n power hpos with
    | case1 power hpos hlt ih =>
      rintro ⟨i, rfl⟩ hle
      have hi : i < k := (Nat.pow_lt_pow_iff_right (by decide)).mp (Nat.lt_of_lt_of_le hlt h)
      exact ih ⟨i + 1, rfl⟩ (Nat.pow_le_pow_right Nat.two_pos hi)
    | case2 power hpos hge => exact fun _ hle => hle
  exact hgo 1 Nat.one_pos ⟨0, rfl⟩ Nat.one_le_two_pow

end

/-- A ring is made unless it would be larger than any power of two there is. -/
theorem exists_make [Inhabited T] {n k : ℕ} (hpos : n ≠ 0) (hle : n ≤ 2 ^ k) (hk : k < 64) :
    ∃ r : RingBuffer T, make n = some r ∧ r.capacity ≤ 2 ^ k := by
  have hpow := nextPowerOfTwo_le hle
  have hsize : n.nextPowerOfTwo ≤ 2 ^ 63 :=
    Nat.le_trans hpow (Nat.pow_le_pow_right (by decide) (Nat.le_of_lt_succ hk))
  rw [make, if_neg hpos, dif_pos hsize]
  exact ⟨_, rfl, Nat.le_trans (Nat.le_of_eq List.length_replicate) hpow⟩

/-- A new ring has the room it was asked for. -/
theorem le_capacity_of_make [Inhabited T] {n : ℕ} {r : RingBuffer T} (h : make n = some r) :
    n ≤ r.capacity := by
  rw [make] at h
  split at h
  · cases h
  · split at h
    · cases h
      exact Nat.le_trans (le_nextPowerOfTwo n) (Nat.le_of_eq List.length_replicate.symm)
    · cases h

end RingBuffer

end RtaTool
