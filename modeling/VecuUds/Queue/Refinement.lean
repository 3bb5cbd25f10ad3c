import VecuUds.Queue.Basic

/-!
# The queue is a bounded first-in first-out list

Seen through `UdsQueue.abstract`, every critical section of the queue is a step of
`Foundation.fifoStep` on lists of byte strings, with the same outcome. The ordering of
messages, and what remains to be popped after shutdown, then come from the list.
-/

namespace VecuUds

open Foundation

/-- The critical sections, by whichever thread enters them. `out` is what the message
variable of the popping thread held before. -/
inductive QueueOp where
  | push (b : Block)
  | pop (out : UdsMsg)
  | shutdown

inductive QueueReply where
  | push (r : Section Unit)
  | pop (r : Section UdsMsg)
  | shutdown

def queueStep (q : UdsQueue) : QueueOp → UdsQueue × QueueReply
  | .push b =>
      let r := udsQueuePush q b
      (r.1, .push r.2)
  | .pop out =>
      let r := udsQueuePopBlocking q out
      (r.1, .pop r.2)
  | .shutdown => (udsQueueShutdown q, .shutdown)

abbrev QueueVisit := Visit UdsQueue QueueOp QueueReply

/-- The queue after any list of critical sections from `uds_queue_init`. -/
def queueRun (ops : List QueueOp) : UdsQueue := run queueStep udsQueueInit ops

def queueTrace (ops : List QueueOp) : List QueueVisit := trace queueStep udsQueueInit ops

/-- The bytes that a visit pushed, if its push returned zero. -/
def QueueVisit.pushed (v : QueueVisit) : Option (List UInt8) :=
  match v.input, v.output with
  | .push b, .push (.done rc _) => if rc = 0 then some b.bytes else none
  | _, _ => none

/-- The bytes that a visit popped, if its pop returned zero. -/
def QueueVisit.popped (v : QueueVisit) : Option (List UInt8) :=
  match v.output with
  | .pop (.done rc m) => if rc = 0 then some m.bytes else none
  | _ => none

/-! ## The abstraction -/

def UdsQueue.abstract (q : UdsQueue) : Fifo (List UInt8) := ⟨q.messages, q.closed⟩

def QueueOp.abstract : QueueOp → FifoOp (List UInt8)
  | .push b => .push b.bytes
  | .pop _ => .pop
  | .shutdown => .close

def QueueReply.abstract : QueueReply → FifoReply (List UInt8)
  | .push .wait => .blocked
  | .push (.done rc _) => if rc = 0 then .accepted else .refused
  | .pop .wait => .blocked
  | .pop (.done rc m) => if rc = 0 then .item m.bytes else .exhausted
  | .shutdown => .shut

/-- The byte strings that fit a message slot. -/
def fitsSlot (bytes : List UInt8) : Bool := 1 ≤ bytes.length && bytes.length ≤ udsMaxMsgLen

/-- The specification: a list of at most eight byte strings that fit a slot. -/
def requestFifo : Fifo (List UInt8) → FifoOp (List UInt8) →
    Fifo (List UInt8) × FifoReply (List UInt8) :=
  fifoStep udsQueueCap fitsSlot

private theorem fitsSlot_block (b : Block) :
    fitsSlot b.bytes = true ↔ 1 ≤ b.len ∧ b.len ≤ udsMaxMsgLen := by
  simp [fitsSlot]

section Effects

variable {q q' : UdsQueue}

theorem PushEffect.valid {b : Block} {r : Section Unit} (effect : PushEffect q b q' r)
    (valid : q.Valid) : q'.Valid := by
  cases effect with
  | pushed _ _ _ stored => exact stored
  | _ => exact valid

theorem PopEffect.valid {out : UdsMsg} {r : Section UdsMsg} (effect : PopEffect q out q' r)
    (valid : q.Valid) : q'.Valid := by
  cases effect with
  | popped left => exact left
  | _ => exact valid

theorem PushEffect.abstract {b : Block} {r : Section Unit} (effect : PushEffect q b q' r) :
    requestFifo q.abstract (.push b.bytes) = (q'.abstract, (QueueReply.push r).abstract) := by
  simp only [requestFifo, fifoStep, UdsQueue.abstract, UdsQueue.length_messages]
  cases effect with
  | invalid outside =>
      have refused : fitsSlot b.bytes = false := by
        rw [Bool.eq_false_iff, ne_eq, fitsSlot_block]
        omega
      simp [refused, QueueReply.abstract]
  | full isOpen full inside =>
      have admitted := (fitsSlot_block b).mpr inside
      simp [admitted, isOpen, full, QueueReply.abstract]
  | closed closed => simp [closed, QueueReply.abstract]
  | pushed isOpen room inside stored stillOpen appended =>
      have admitted := (fitsSlot_block b).mpr inside
      simp [admitted, isOpen, Nat.ne_of_lt room, stillOpen, appended, QueueReply.abstract]

theorem PopEffect.abstract {out : UdsMsg} {r : Section UdsMsg} (effect : PopEffect q out q' r) :
    requestFifo q.abstract .pop = (q'.abstract, (QueueReply.pop r).abstract) := by
  simp only [requestFifo, fifoStep, UdsQueue.abstract]
  cases effect with
  | empty isOpen empty => simp [isOpen, empty, QueueReply.abstract]
  | drained closed empty => simp [closed, empty, QueueReply.abstract]
  | popped left closed m inside oldest => simp [closed, oldest, QueueReply.abstract]

theorem UdsQueue.Valid.step (valid : q.Valid) (op : QueueOp) : (queueStep q op).1.Valid := by
  cases op with
  | push b => exact (udsQueuePush_effect valid b).valid valid
  | pop out => exact (udsQueuePopBlocking_effect valid out).valid valid
  | shutdown => exact valid.shutdown

/-- Every critical section commutes with the abstraction. -/
theorem queueStep_abstract (valid : q.Valid) (op : QueueOp) :
    requestFifo q.abstract op.abstract =
      ((queueStep q op).1.abstract, (queueStep q op).2.abstract) := by
  cases op with
  | push b => exact (udsQueuePush_effect valid b).abstract
  | pop out => exact (udsQueuePopBlocking_effect valid out).abstract
  | shutdown => rfl

end Effects

theorem queueRun_valid (ops : List QueueOp) : (queueRun ops).Valid := by
  refine run_invariant queueStep (P := UdsQueue.Valid) ?_ .init ops
  intro _ op valid
  exact valid.step op

/-- Whole runs commute with the abstraction. -/
theorem queue_abstraction {q : UdsQueue} (valid : q.Valid) (ops : List QueueOp) :
    trace requestFifo q.abstract (ops.map QueueOp.abstract) =
        (trace queueStep q ops).map
          (Visit.map UdsQueue.abstract QueueOp.abstract QueueReply.abstract) ∧
      run requestFifo q.abstract (ops.map QueueOp.abstract) = (run queueStep q ops).abstract :=
  trace_abstraction (P := UdsQueue.Valid) _ _ _ (fun _ op valid => valid.step op)
    (fun _ op valid => queueStep_abstract valid op) valid ops

/-- Pushes and pops of the queue are those of the list, visit by visit. -/
theorem trace_pushed {q : UdsQueue} (valid : q.Valid) (ops : List QueueOp) :
    (trace requestFifo q.abstract (ops.map QueueOp.abstract)).filterMap FifoVisit.added =
        (trace queueStep q ops).filterMap QueueVisit.pushed ∧
      (trace requestFifo q.abstract (ops.map QueueOp.abstract)).filterMap FifoVisit.taken =
        (trace queueStep q ops).filterMap QueueVisit.popped := by
  rw [(queue_abstraction valid ops).1, List.filterMap_map, List.filterMap_map]
  constructor
  · congr 1
    funext v
    obtain ⟨before, input, output, after⟩ := v
    rcases input with b | out | _ <;> rcases output with (_ | ⟨rc, u⟩) | (_ | ⟨rc, m⟩) | _ <;>
      simp [Visit.map, FifoVisit.added, QueueVisit.pushed, QueueOp.abstract, QueueReply.abstract]
    all_goals by_cases zero : rc = 0 <;> simp [zero]
  · congr 1
    funext v
    obtain ⟨before, input, output, after⟩ := v
    rcases output with (_ | ⟨rc, u⟩) | (_ | ⟨rc, m⟩) | _ <;>
      simp [Visit.map, FifoVisit.taken, QueueVisit.popped, QueueReply.abstract]
    all_goals by_cases zero : rc = 0 <;> simp [zero]

/-- What is stored and what is pushed later is what is popped later and what is left. -/
theorem queue_conservation {q : UdsQueue} (valid : q.Valid) (ops : List QueueOp) :
    q.messages ++ (trace queueStep q ops).filterMap QueueVisit.pushed =
      (trace queueStep q ops).filterMap QueueVisit.popped ++ (run queueStep q ops).messages := by
  obtain ⟨pushes, pops⟩ := trace_pushed valid ops
  have conserved := fifo_conservation udsQueueCap fitsSlot q.abstract (ops.map QueueOp.abstract)
  change q.messages ++ (trace requestFifo _ _).filterMap _ =
    (trace requestFifo _ _).filterMap _ ++ (run requestFifo _ _).items at conserved
  rwa [pushes, pops, (queue_abstraction valid ops).2] at conserved

theorem queueRun_closed {ops : List QueueOp} (shut : .shutdown ∈ ops) :
    (queueRun ops).closed = true := by
  have member : FifoOp.close ∈ ops.map QueueOp.abstract :=
    List.mem_map.mpr ⟨.shutdown, shut, rfl⟩
  have closed : (run requestFifo udsQueueInit.abstract (ops.map QueueOp.abstract)).closed = true :=
    fifo_closed_of_mem udsQueueCap fitsSlot member
  rw [(queue_abstraction .init ops).2] at closed
  exact closed

/-- What a critical section of a closed queue can still do. -/
def ClosedVisit (v : QueueVisit) : Prop :=
  (∀ b, v.input = .push b → v.output = .push (.done (-1) ()) ∧ v.after = v.before) ∧
    ∀ out, v.input = .pop out →
      (v.before.messages = [] ∧ v.output = .pop (.done (-1) out)) ∨
        ∃ m, v.output = .pop (.done 0 m) ∧ v.before.messages = m.bytes :: v.after.messages

theorem closedVisit {q : UdsQueue} (valid : q.Valid) (closed : q.closed = true) (op : QueueOp) :
    ClosedVisit (visit queueStep q op) := by
  constructor
  · rintro b rfl
    simp only [visit, queueStep]
    have effect := udsQueuePush_effect valid b
    generalize (udsQueuePush q b).1 = q', (udsQueuePush q b).2 = r at effect ⊢
    cases effect with
    | invalid => exact ⟨rfl, rfl⟩
    | closed => exact ⟨rfl, rfl⟩
    | full isOpen => exact absurd isOpen (ne_false_of_eq_true closed)
    | pushed isOpen => exact absurd isOpen (ne_false_of_eq_true closed)
  · rintro out rfl
    simp only [visit, queueStep]
    have effect := udsQueuePopBlocking_effect valid out
    generalize (udsQueuePopBlocking q out).1 = q', (udsQueuePopBlocking q out).2 = r at effect ⊢
    cases effect with
    | empty isOpen => exact absurd isOpen (ne_false_of_eq_true closed)
    | drained _ empty => exact .inl ⟨empty, rfl⟩
    | popped _ _ m _ oldest => exact .inr ⟨m, rfl, oldest⟩

/-- **The request queue refines a bounded first-in first-out list**, after any critical
sections from `uds_queue_init`: the indices represent a list of at most eight messages,
the next section of any thread acts on it as the specification does, the popped messages
are the oldest of the pushed ones, and after shutdown pushes fail while pops drain what
is left. -/
theorem request_queue_refines_fifo (ops : List QueueOp) :
    let q := queueRun ops
    (q.count ≤ udsQueueCap ∧ q.tail = (q.head + q.count) % udsQueueCap ∧
      q.messages.length = q.count) ∧
    (∀ op, requestFifo q.abstract op.abstract =
        ((queueStep q op).1.abstract, (queueStep q op).2.abstract) ∧
      ∀ m, (queueStep q op).2 = .pop (.done 0 m) → 1 ≤ m.len ∧ m.bytes.length = m.len) ∧
    (queueTrace ops).filterMap QueueVisit.pushed =
      (queueTrace ops).filterMap QueueVisit.popped ++ q.messages ∧
    (.shutdown ∈ ops → ∀ more : List QueueOp,
      (∀ v ∈ trace queueStep q more, ClosedVisit v) ∧
        q.messages =
          (trace queueStep q more).filterMap QueueVisit.popped ++
            (run queueStep q more).messages) := by
  intro q
  have valid : q.Valid := queueRun_valid ops
  refine ⟨⟨valid.ring.bounded, valid.ring.tail, q.length_messages⟩, ?_, ?_, ?_⟩
  · intro op
    refine ⟨queueStep_abstract valid op, ?_⟩
    intro m popped
    cases op with
    | push b => cases popped
    | shutdown => cases popped
    | pop out =>
        have effect := udsQueuePopBlocking_effect valid out
        rw [QueueReply.pop.inj popped] at effect
        generalize (udsQueuePopBlocking q out).1 = q' at effect
        cases effect with
        | popped _ _ _ inside => exact ⟨inside.1, UdsMsg.length_bytes inside.2⟩
  · exact queue_conservation UdsQueue.Valid.init ops
  · intro shut more
    have calm : ∀ v ∈ trace queueStep q more, ClosedVisit v := by
      intro v member
      obtain ⟨past, op, future, -, rfl⟩ := (mem_trace_iff queueStep).mp member
      have point : run queueStep q past = queueRun (ops ++ past) := (run_append _ _ _ _).symm
      rw [point]
      exact closedVisit (queueRun_valid _) (queueRun_closed (List.mem_append_left _ shut)) op
    have silent : (trace queueStep q more).filterMap QueueVisit.pushed = [] := by
      rw [List.filterMap_eq_nil_iff]
      intro v member
      have refused := (calm v member).1
      unfold QueueVisit.pushed
      split
      · next b rc _ input output =>
          have rejected := (refused b input).1
          rw [output] at rejected
          cases rejected
          rfl
      · rfl
    have conserved := queue_conservation valid more
    rw [silent, List.append_nil] at conserved
    exact ⟨calm, conserved⟩

end VecuUds
