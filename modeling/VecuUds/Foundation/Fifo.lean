import VecuUds.Foundation.Trace

/-!
# Bounded queues that can be closed

The abstract queue of a producer-consumer pair: a list, a capacity and a flag. A push
that finds no room and a pop that finds no element are blocked, that is, the step is
tried again later. Closing refuses further pushes but keeps the elements.

`fifo_conservation` is the whole ordering argument: what is in the queue, followed by
what is accepted later, is what is delivered later, followed by what is left.
-/

namespace Foundation

universe u

structure Fifo (α : Type u) where
  items : List α
  closed : Bool

inductive FifoOp (α : Type u) where
  | push (x : α)
  | pop
  | close

inductive FifoReply (α : Type u) where
  | blocked
  | accepted
  | refused
  | item (x : α)
  | exhausted
  | shut

variable {α : Type u} (cap : Nat) (admits : α → Bool)

def fifoStep (s : Fifo α) : FifoOp α → Fifo α × FifoReply α
  | .push x =>
      if admits x = false ∨ s.closed then (s, .refused)
      else if s.items.length = cap then (s, .blocked)
      else ({ s with items := s.items ++ [x] }, .accepted)
  | .pop =>
      match s.items with
      | x :: rest => ({ s with items := rest }, .item x)
      | [] => if s.closed then (s, .exhausted) else (s, .blocked)
  | .close => ({ s with closed := true }, .shut)

abbrev FifoVisit (α : Type u) := Visit (Fifo α) (FifoOp α) (FifoReply α)

/-- The element that a visit added. -/
def FifoVisit.added (v : FifoVisit α) : Option α :=
  match v.input, v.output with
  | .push x, .accepted => some x
  | _, _ => none

/-- The element that a visit handed out. -/
def FifoVisit.taken (v : FifoVisit α) : Option α :=
  match v.output with
  | .item x => some x
  | _ => none

theorem fifoStep_conservation (s : Fifo α) (op : FifoOp α) :
    s.items ++ (FifoVisit.added (visit (fifoStep cap admits) s op)).toList =
      (FifoVisit.taken (visit (fifoStep cap admits) s op)).toList ++
        (fifoStep cap admits s op).1.items := by
  cases op with
  | push x =>
      simp only [visit, fifoStep]
      split_ifs <;> simp [FifoVisit.added, FifoVisit.taken]
  | pop =>
      simp only [visit, fifoStep]
      split
      · next x rest items => simp [FifoVisit.added, FifoVisit.taken, items]
      · split_ifs <;> simp_all [FifoVisit.added, FifoVisit.taken]
  | close => simp [visit, fifoStep, FifoVisit.added, FifoVisit.taken]

/-- Nothing is lost, duplicated or reordered. -/
theorem fifo_conservation (s : Fifo α) (ops : List (FifoOp α)) :
    s.items ++ (trace (fifoStep cap admits) s ops).filterMap FifoVisit.added =
      (trace (fifoStep cap admits) s ops).filterMap FifoVisit.taken ++
        (run (fifoStep cap admits) s ops).items := by
  induction ops generalizing s with
  | nil => simp
  | cons op rest ih =>
      have first := fifoStep_conservation cap admits s op
      have later := ih (fifoStep cap admits s op).1
      have cut : ∀ (f : FifoVisit α → Option α) (v : FifoVisit α) (visits : List (FifoVisit α)),
          (v :: visits).filterMap f = (f v).toList ++ visits.filterMap f := by
        intro f v visits
        cases h : f v <;> simp [h]
      rw [trace_cons, cut, cut, run_cons, ← List.append_assoc, first, List.append_assoc, later,
        List.append_assoc]

/-- Closing is final. -/
theorem fifo_closed {s : Fifo α} (closed : s.closed = true) (ops : List (FifoOp α)) :
    (run (fifoStep cap admits) s ops).closed = true := by
  refine run_invariant (fifoStep cap admits) (P := fun s => s.closed = true) ?_ closed ops
  intro s op closed
  cases op with
  | push x => simp [fifoStep, closed]
  | pop =>
      simp only [fifoStep]
      split
      · exact closed
      · rwa [if_pos closed]
  | close => rfl

theorem fifo_closed_of_mem {s : Fifo α} {ops : List (FifoOp α)} (member : .close ∈ ops) :
    (run (fifoStep cap admits) s ops).closed = true := by
  obtain ⟨before, after, rfl⟩ := List.append_of_mem member
  rw [run_append, run_cons]
  exact fifo_closed cap admits rfl after

end Foundation
