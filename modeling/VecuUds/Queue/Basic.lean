import VecuUds.Foundation.Bytes
import VecuUds.Foundation.Fifo
import VecuUds.Foundation.Ring
import VecuUds.Ecu.Types

/-!
# The request queue

`uds_queue_t` is a circular buffer of eight message slots with a closed flag. Every
operation is one critical section under the queue's mutex; a thread that finds the queue
full or empty waits on a condition variable and runs the section again when it wakes up.
A run of the queue is therefore a list of sections, tried by any number of producers,
consumers and callers of shutdown in any order.

A push copies into a slot that an earlier message has used. Only the copied bytes and
the length are new, and only they are read back.
-/

namespace VecuUds

open Foundation

/-- `UDS_QUEUE_CAP`. -/
def udsQueueCap : Nat := 8

/-- A message slot: a buffer of full size and the length in use. -/
structure UdsMsg where
  data : List UInt8
  len : Nat
  size : data.length = udsMaxMsgLen

/-- The bytes in use. -/
def UdsMsg.bytes (m : UdsMsg) : List UInt8 := m.data.take m.len

/-- The arguments of a push: a buffer with at least `len` readable bytes. -/
structure Block where
  data : List UInt8
  len : Nat
  readable : len ≤ data.length

def Block.bytes (b : Block) : List UInt8 := b.data.take b.len

@[simp] theorem Block.length_bytes (b : Block) : b.bytes.length = b.len := by
  simp [Block.bytes, b.readable]

/-- The `memcpy` of `len` bytes into a slot, and the new length. -/
def UdsMsg.store (slot : UdsMsg) (b : Block) (fits : b.len ≤ udsMaxMsgLen) : UdsMsg where
  data := overwrite slot.data 0 b.bytes
  len := b.len
  size := by
    rw [length_overwrite (by simpa [slot.size] using fits)]
    exact slot.size

@[simp] theorem UdsMsg.bytes_store (slot : UdsMsg) (b : Block) (fits : b.len ≤ udsMaxMsgLen) :
    (slot.store b fits).bytes = b.bytes := by
  have copied := take_overwrite_zero slot.data b.bytes
  rwa [b.length_bytes] at copied

/-- `uds_queue_t` without its mutex and condition variables. -/
structure UdsQueue extends Ring UdsMsg udsQueueCap where
  closed : Bool

/-- A zeroed message slot. -/
def UdsMsg.zero : UdsMsg := ⟨List.replicate udsMaxMsgLen 0, 0, List.length_replicate⟩

def udsQueueInit : UdsQueue where
  slots := Vector.replicate udsQueueCap .zero
  head := 0
  tail := 0
  count := 0
  head_lt := by decide
  tail_lt := by decide
  closed := false

def udsQueueShutdown (q : UdsQueue) : UdsQueue := { q with closed := true }

/-- The end of a critical section: the thread waits, or the call returns with a code
and the value of its out parameter. -/
inductive Section (β : Type) where
  | wait
  | done (rc : Int) (out : β)

def udsQueuePush (q : UdsQueue) (b : Block) : UdsQueue × Section Unit :=
  if outside : b.len = 0 ∨ udsMaxMsgLen < b.len then (q, .done (-1) ())
  else if q.closed = false ∧ q.count = udsQueueCap then (q, .wait)
  else if q.closed then (q, .done (-1) ())
  else
    (⟨q.toRing.push fun slot => slot.store b (by omega), q.closed⟩, .done 0 ())

def udsQueuePopBlocking (q : UdsQueue) (out : UdsMsg) : UdsQueue × Section UdsMsg :=
  if q.closed = false ∧ q.count = 0 then (q, .wait)
  else if q.count = 0 then (q, .done (-1) out)
  else
    let r := q.toRing.pop
    (⟨r.2, q.closed⟩, .done 0 r.1)

/-! ## Representation -/

/-- The messages a queue stands for, oldest first. -/
def UdsQueue.messages (q : UdsQueue) : List (List UInt8) := q.contents.map UdsMsg.bytes

/-- The ring invariant, and lengths in the range that a push admits. -/
structure UdsQueue.Valid (q : UdsQueue) : Prop where
  ring : q.toRing.Valid
  lengths : ∀ m ∈ q.contents, 1 ≤ m.len ∧ m.len ≤ udsMaxMsgLen

theorem UdsQueue.Valid.init : udsQueueInit.Valid where
  ring := ⟨by decide, by decide⟩
  lengths := by simp [udsQueueInit, Ring.contents]

theorem UdsQueue.Valid.shutdown {q : UdsQueue} (valid : q.Valid) : (udsQueueShutdown q).Valid :=
  ⟨⟨valid.ring.bounded, valid.ring.tail⟩, valid.lengths⟩

theorem UdsMsg.length_bytes {m : UdsMsg} (fits : m.len ≤ udsMaxMsgLen) :
    m.bytes.length = m.len := by
  simp [UdsMsg.bytes, m.size, fits]

@[simp] theorem UdsQueue.length_messages (q : UdsQueue) : q.messages.length = q.count := by
  simp [UdsQueue.messages]

theorem UdsQueue.messages_eq_nil {q : UdsQueue} : q.messages = [] ↔ q.count = 0 := by
  rw [← List.length_eq_zero_iff, q.length_messages]

/-- Every outcome of a push, and what it does to the represented list. -/
inductive PushEffect (q : UdsQueue) (b : Block) : UdsQueue → Section Unit → Prop where
  | invalid (outside : b.len = 0 ∨ udsMaxMsgLen < b.len) : PushEffect q b q (.done (-1) ())
  | full (isOpen : q.closed = false) (full : q.count = udsQueueCap)
      (inside : 1 ≤ b.len ∧ b.len ≤ udsMaxMsgLen) : PushEffect q b q .wait
  | closed (closed : q.closed = true) : PushEffect q b q (.done (-1) ())
  | pushed (isOpen : q.closed = false) (room : q.count < udsQueueCap)
      (inside : 1 ≤ b.len ∧ b.len ≤ udsMaxMsgLen) {q' : UdsQueue} (valid : q'.Valid)
      (stillOpen : q'.closed = false) (appended : q'.messages = q.messages ++ [b.bytes]) :
      PushEffect q b q' (.done 0 ())

theorem udsQueuePush_effect {q : UdsQueue} (valid : q.Valid) (b : Block) :
    PushEffect q b (udsQueuePush q b).1 (udsQueuePush q b).2 := by
  unfold udsQueuePush
  split_ifs with outside full closed
  · exact .invalid outside
  · exact .full full.1 full.2 (by omega)
  · exact .closed closed
  · have isOpen : q.closed = false := by simpa using closed
    have room : q.count < udsQueueCap := by
      have := valid.ring.bounded
      have : q.count ≠ udsQueueCap := by
        intro same
        exact full ⟨isOpen, same⟩
      omega
    let write := fun slot : UdsMsg => slot.store b (by omega)
    have contents := Ring.contents_push valid.ring room write
    have stored : UdsQueue.Valid ⟨q.toRing.push write, q.closed⟩ := by
      refine ⟨valid.ring.push room write, ?_⟩
      intro m member
      rw [show Ring.contents _ = _ from contents, List.mem_append, List.mem_singleton] at member
      rcases member with old | new
      · exact valid.lengths m old
      · rw [new]
        change 1 ≤ b.len ∧ b.len ≤ udsMaxMsgLen
        omega
    refine .pushed isOpen room (by omega) stored isOpen ?_
    simp only [UdsQueue.messages, contents, List.map_append, List.map_singleton, write,
      UdsMsg.bytes_store]

/-- Every outcome of a pop, and what it does to the represented list. -/
inductive PopEffect (q : UdsQueue) (out : UdsMsg) : UdsQueue → Section UdsMsg → Prop where
  | empty (isOpen : q.closed = false) (empty : q.messages = []) : PopEffect q out q .wait
  | drained (closed : q.closed = true) (empty : q.messages = []) :
      PopEffect q out q (.done (-1) out)
  | popped {q' : UdsQueue} (valid : q'.Valid) (closed : q'.closed = q.closed) (m : UdsMsg)
      (inside : 1 ≤ m.len ∧ m.len ≤ udsMaxMsgLen) (oldest : q.messages = m.bytes :: q'.messages) :
      PopEffect q out q' (.done 0 m)

theorem udsQueuePopBlocking_effect {q : UdsQueue} (valid : q.Valid) (out : UdsMsg) :
    PopEffect q out (udsQueuePopBlocking q out).1 (udsQueuePopBlocking q out).2 := by
  unfold udsQueuePopBlocking
  split_ifs with waits drained
  · exact .empty waits.1 (UdsQueue.messages_eq_nil.mpr waits.2)
  · have closed : q.closed = true := by
      by_contra isOpen
      exact waits ⟨by simpa using isOpen, drained⟩
    exact .drained closed (UdsQueue.messages_eq_nil.mpr drained)
  · have contents := Ring.contents_pop (q := q.toRing) (Nat.pos_of_ne_zero drained)
    have lengths := valid.lengths
    rw [contents] at lengths
    have left : UdsQueue.Valid ⟨q.toRing.pop.2, q.closed⟩ :=
      ⟨valid.ring.pop (Nat.pos_of_ne_zero drained),
        fun m member => lengths m (List.mem_cons_of_mem _ member)⟩
    have oldest : q.messages =
        q.toRing.pop.1.bytes :: UdsQueue.messages ⟨q.toRing.pop.2, q.closed⟩ := by
      simp only [UdsQueue.messages, contents, List.map_cons]
    have same : UdsQueue.closed ⟨q.toRing.pop.2, q.closed⟩ = q.closed := rfl
    exact .popped left same q.toRing.pop.1 (lengths _ List.mem_cons_self) oldest

end VecuUds
