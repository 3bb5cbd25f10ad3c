import VecuUds.Foundation.Linearize
import VecuUds.Queue.Monitor
import VecuUds.Queue.Refinement

/-!
# The monitor is linearizable

`Queue.Refinement` speaks of critical sections that follow each other. In the monitor a
call is many steps: it waits for the mutex, parks, is woken, tries again, signals, and
only then returns, and the calls of different threads overlap. To their callers they
still look like operations of the bounded list, each carried out at one moment between
its call and its return: a call acts in the section after which it does not wait again.
-/

namespace VecuUds

open Foundation

/-- The section that a call tries. -/
def QueueCall.op : QueueCall → QueueOp
  | .push b _ => .push b
  | .pop out => .pop out
  | .shutdown => .shutdown

/-- The calls and returns of the monitor, in terms of the bounded list. -/
abbrev QueueEvent (τ : Type) := CallEvent τ (FifoOp (List UInt8)) (FifoReply (List UInt8))

/-- The monitor, with the result of the last section that each thread has tried. It is
what the call returns when it leaves the monitor. -/
structure WatchedMonitor (τ : Type) where
  monitor : Monitor τ
  result : τ → Option QueueReply

section Watching

variable {τ : Type} [Fintype τ] [DecidableEq τ]

def watchedStep (s : WatchedMonitor τ) (x : MonitorInput τ) :
    WatchedMonitor τ × List (QueueEvent τ) :=
  let next := (monitorStep s.monitor x).1
  match s.monitor.pc x.thread with
  | .outside => (⟨next, s.result⟩, [.invoked x.thread x.call.op.abstract])
  | .testing call =>
      (⟨next, Function.update s.result x.thread (some (queueStep s.monitor.queue call.op).2)⟩, [])
  | .unlocking =>
      (⟨next, s.result⟩,
        (s.result x.thread).toList.map fun reply => .returned x.thread reply.abstract)
  | _ => (⟨next, s.result⟩, [])

def WatchedMonitor.start : WatchedMonitor τ := ⟨.start, fun _ => none⟩

/-- The calls and returns in a run of the monitor. -/
def monitorHistory (inputs : List (MonitorInput τ)) : List (QueueEvent τ) :=
  (trace watchedStep .start inputs).flatMap Visit.output

theorem watchedStep_monitor (s : WatchedMonitor τ) (x : MonitorInput τ) :
    (watchedStep s x).1.monitor = (monitorStep s.monitor x).1 := by
  unfold watchedStep
  cases s.monitor.pc x.thread <;> rfl

/-- Watching the monitor does not change it. -/
theorem run_watchedStep (inputs : List (MonitorInput τ)) :
    (run watchedStep .start inputs).monitor = monitorRun inputs := by
  have commutes : ∀ (s : WatchedMonitor τ) (x : MonitorInput τ), True →
      monitorStep s.monitor (id x) = ((watchedStep s x).1.monitor, ()) := by
    intro s x _
    rw [watchedStep_monitor]
    rfl
  have watched := trace_abstraction WatchedMonitor.monitor id (fun _ => ())
    (fun _ _ _ => trivial) commutes (s := .start) trivial inputs
  rw [List.map_id] at watched
  exact watched.2.symm

end Watching

/-! ## Where a call stands -/

namespace MonitorPc

/-- The call has acted and has not returned yet. -/
def leaving : MonitorPc → Bool
  | .signalling _ => true
  | .broadcasting _ => true
  | .unlocking => true
  | _ => false

/-- How far the call of a thread has got, from the point where the thread stands. -/
def Reached (pc : MonitorPc) (result : Option QueueReply)
    (phase : CallPhase (FifoOp (List UInt8)) (FifoReply (List UInt8))) : Prop :=
  match pc with
  | .outside => phase = .idle
  | .locking call => phase = .called call.op.abstract
  | .testing call => phase = .called call.op.abstract
  | .parked call => phase = .called call.op.abstract
  | .woken call => phase = .called call.op.abstract
  | _ => ∃ op reply, result = some reply ∧ phase = .answered op reply.abstract

variable {pc : MonitorPc} {result : Option QueueReply}
variable {phase : CallPhase (FifoOp (List UInt8)) (FifoReply (List UInt8))}

theorem reached_of_leaving (leaves : pc.leaving = true) {op : FifoOp (List UInt8)}
    {reply : QueueReply} (answered : phase = .answered op reply.abstract) :
    pc.Reached (some reply) phase := by
  cases pc with
  | signalling c => exact ⟨op, reply, rfl, answered⟩
  | broadcasting c => exact ⟨op, reply, rfl, answered⟩
  | unlocking => exact ⟨op, reply, rfl, answered⟩
  | _ => cases leaves

/-- To be woken is not to get any further with the call. -/
theorem reached_wake (c : Cond) (r : Bool) (reached : pc.Reached result phase) :
    (pc.wake c r).Reached result phase := by
  cases pc with
  | parked call =>
      simp only [wake]
      split_ifs
      · exact reached
      · exact reached
  | _ => exact reached

end MonitorPc

section Sections

variable {τ : Type} [Fintype τ] [DecidableEq τ]

/-- A section waits and leaves the queue alone, or it is the one in which the call acts. -/
inductive Tested (s : Monitor τ) (i : τ) (call : QueueCall) : Monitor τ → Prop where
  | waits (blocked : (queueStep s.queue call.op).2.abstract = .blocked) :
      Tested s i call ⟨s.queue, none, Function.update s.pc i (.parked call)⟩
  | acts (ended : (queueStep s.queue call.op).2.abstract ≠ .blocked) (pc : MonitorPc)
      (leaves : pc.leaving = true) :
      Tested s i call ⟨(queueStep s.queue call.op).1, s.owner, Function.update s.pc i pc⟩

omit [Fintype τ] in
theorem monitorTest_tested {s : Monitor τ} (valid : s.queue.Valid) (i : τ) (call : QueueCall) :
    Tested s i call (monitorTest s i call) := by
  cases call with
  | push b inside =>
      have effect := udsQueuePush_effect valid b
      have acts := @Tested.acts τ _ s i (.push b inside)
      have waits := @Tested.waits τ _ s i (.push b inside)
      simp only [QueueCall.op, queueStep] at acts waits
      simp only [monitorTest]
      generalize udsQueuePush s.queue b = r at effect acts waits ⊢
      obtain ⟨q, result⟩ := r
      cases effect with
      | invalid outside => exact acts (by simp [QueueReply.abstract]) _ rfl
      | full isOpen full => exact waits rfl
      | closed closed => exact acts (by simp [QueueReply.abstract]) _ rfl
      | pushed => exact acts (by simp [QueueReply.abstract]) _ rfl
  | pop out =>
      have effect := udsQueuePopBlocking_effect valid out
      have acts := @Tested.acts τ _ s i (.pop out)
      have waits := @Tested.waits τ _ s i (.pop out)
      simp only [QueueCall.op, queueStep] at acts waits
      simp only [monitorTest]
      generalize udsQueuePopBlocking s.queue out = r at effect acts waits ⊢
      obtain ⟨q, result⟩ := r
      cases effect with
      | empty => exact waits rfl
      | drained => exact acts (by simp [QueueReply.abstract]) _ rfl
      | popped => exact acts (by simp [QueueReply.abstract]) _ rfl
  | shutdown => exact .acts (by simp [queueStep, QueueCall.op, QueueReply.abstract]) _ rfl

end Sections

/-! ## The atomic list simulates the monitor -/

section Simulation

variable {τ : Type} [Fintype τ] [DecidableEq τ] {s : WatchedMonitor τ}

/-- The bounded list as an object whose calls act in one step. -/
abbrev AtomicFifo (τ : Type) :=
  Atomic τ (Fifo (List UInt8)) (FifoOp (List UInt8)) (FifoReply (List UInt8))

variable {a : AtomicFifo τ}

structure StandsFor (s : WatchedMonitor τ) (a : AtomicFifo τ) : Prop where
  valid : s.monitor.Valid
  object : a.object = s.monitor.queue.abstract
  reached : ∀ i, (s.monitor.pc i).Reached (s.result i) (a.phase i)

omit [DecidableEq τ] in
theorem StandsFor.start : StandsFor (.start : WatchedMonitor τ) (.start ⟨[], false⟩) where
  valid := .start
  object := by simp [Atomic.start, WatchedMonitor.start, Monitor.start, UdsQueue.abstract,
    UdsQueue.messages, udsQueueInit, Ring.contents]
  reached := fun _ => rfl

omit [Fintype τ] in
/-- One thread moves, in the monitor and in the atomic object. -/
theorem reached_update {pc : τ → MonitorPc} {result result' : τ → Option QueueReply}
    {phase phase' : τ → CallPhase (FifoOp (List UInt8)) (FifoReply (List UInt8))}
    (reached : ∀ j, (pc j).Reached (result j) (phase j)) {i : τ} {b : MonitorPc}
    (here : b.Reached (result' i) (phase' i)) (sameResult : ∀ j, j ≠ i → result' j = result j)
    (samePhase : ∀ j, j ≠ i → phase' j = phase j) :
    ∀ j, (Function.update pc i b j).Reached (result' j) (phase' j) := by
  intro j
  by_cases same : j = i
  · subst same
    rw [Function.update_self]
    exact here
  · rw [Function.update_of_ne same, sameResult j same, samePhase j same]
    exact reached j

/-- A step in which no call is made, acts or returns. -/
theorem StandsFor.silent (related : StandsFor s a) {m : Monitor τ} (valid : m.Valid)
    (queue : m.queue = s.monitor.queue)
    (reached : ∀ j, (m.pc j).Reached (s.result j) (a.phase j)) :
    ∃ a', AtomicStep requestFifo (· ≠ .blocked) a [] a' ∧ StandsFor ⟨m, s.result⟩ a' := by
  refine ⟨a, .stay, valid, ?_, reached⟩
  rw [queue]
  exact related.object

/-- The section of a call is silent if it waits, and its action if it does not. -/
theorem StandsFor.tests (related : StandsFor s a) {i : τ} {call : QueueCall} {m : Monitor τ}
    (called : a.phase i = .called call.op.abstract) (tested : Tested s.monitor i call m)
    (valid : m.Valid) :
    ∃ a', AtomicStep requestFifo (· ≠ .blocked) a [] a' ∧
      StandsFor ⟨m, Function.update s.result i
        (some (queueStep s.monitor.queue call.op).2)⟩ a' := by
  have others : ∀ j, j ≠ i → Function.update s.result i
      (some (queueStep s.monitor.queue call.op).2) j = s.result j :=
    fun j ne => Function.update_of_ne ne ..
  cases tested with
  | waits blocked =>
      refine ⟨a, .stay, valid, related.object, ?_⟩
      exact reached_update related.reached called others fun _ _ => rfl
  | acts ended pc leaves =>
      have commutes : requestFifo a.object call.op.abstract =
          ((queueStep s.monitor.queue call.op).1.abstract,
            (queueStep s.monitor.queue call.op).2.abstract) := by
        rw [related.object]
        exact queueStep_abstract related.valid.queue call.op
      refine ⟨_, .act called (by rwa [commutes]), valid, by rw [commutes], ?_⟩
      apply reached_update related.reached _ others fun j ne => Function.update_of_ne ne ..
      rw [Function.update_self]
      apply MonitorPc.reached_of_leaving leaves
      exact (Function.update_self ..).trans (by rw [commutes])

/-- Every step of the monitor is a step of the atomic list, or none. -/
theorem StandsFor.step (related : StandsFor s a) (x : MonitorInput τ) :
    ∃ a', AtomicStep requestFifo (· ≠ .blocked) a (watchedStep s x).2 a' ∧
      StandsFor (watchedStep s x).1 a' := by
  have valid := related.valid.step x
  have here := related.reached x.thread
  cases stands : s.monitor.pc x.thread with
  | outside =>
      simp only [watchedStep, monitorStep, stands] at valid here ⊢
      refine ⟨_, .invoke here x.call.op.abstract, valid, related.object, ?_⟩
      apply reached_update related.reached _ (fun _ _ => rfl)
      · exact fun j ne => Function.update_of_ne ne ..
      · exact Function.update_self ..
  | locking call =>
      simp only [watchedStep, monitorStep, stands] at valid here ⊢
      split_ifs at valid ⊢
      · exact related.silent valid rfl
          (reached_update related.reached here (fun _ _ => rfl) fun _ _ => rfl)
      · exact related.silent valid rfl related.reached
  | testing call =>
      simp only [watchedStep, monitorStep, stands] at valid here ⊢
      exact related.tests here (monitorTest_tested related.valid.queue x.thread call) valid
  | parked call =>
      simp only [watchedStep, monitorStep, stands] at valid here ⊢
      exact related.silent valid rfl
        (reached_update related.reached here (fun _ _ => rfl) fun _ _ => rfl)
  | woken call =>
      simp only [watchedStep, monitorStep, stands] at valid here ⊢
      split_ifs at valid ⊢
      · exact related.silent valid rfl
          (reached_update related.reached here (fun _ _ => rfl) fun _ _ => rfl)
      · exact related.silent valid rfl related.reached
  | signalling c =>
      simp only [watchedStep, monitorStep, stands] at valid here ⊢
      split_ifs at valid ⊢
      · have woken := fun j => MonitorPc.reached_wake c (x.reached j) (related.reached j)
        exact related.silent valid rfl (reached_update woken here (fun _ _ => rfl) fun _ _ => rfl)
      · exact related.silent valid rfl related.reached
  | broadcasting c =>
      simp only [watchedStep, monitorStep, stands] at valid here ⊢
      have woken := fun j => MonitorPc.reached_wake c true (related.reached j)
      have next : c.broadcasted.Reached (s.result x.thread) (a.phase x.thread) := by
        cases c <;> exact here
      exact related.silent valid rfl (reached_update woken next (fun _ _ => rfl) fun _ _ => rfl)
  | unlocking =>
      simp only [watchedStep, monitorStep, stands] at valid here ⊢
      obtain ⟨op, reply, said, answered⟩ := here
      rw [said]
      refine ⟨_, .return answered, valid, related.object, ?_⟩
      apply reached_update related.reached _ (fun _ _ => rfl)
      · exact fun j ne => Function.update_of_ne ne ..
      · exact Function.update_self ..

end Simulation

/-! ## Linearizability -/

/-- The calls that have acted, with their replies in terms of the bounded list. -/
abbrev FifoCall (τ : Type) := Call τ (FifoOp (List UInt8)) (FifoReply (List UInt8))

/-- The message that a call has put into the list. -/
def FifoCall.accepted {τ : Type} (c : FifoCall τ) : Option (List UInt8) :=
  match c.input, c.output with
  | .push m, .accepted => some m
  | _, _ => none

/-- The message that a call has taken out of the list. -/
def FifoCall.delivered {τ : Type} (c : FifoCall τ) : Option (List UInt8) :=
  match c.output with
  | .item m => some m
  | _ => none

/-- **The queue is linearizable.** In every schedule of any number of threads, the calls
that have acted can be put in one order, in keeping with the order of each thread and
with real time, in which a bounded first-in first-out list answers them as they were
answered, never with "wait". The list then holds what the queue holds: the accepted
messages are the delivered ones followed by those still stored. -/
theorem queue_linearizable {τ : Type} [Fintype τ] [DecidableEq τ]
    (inputs : List (MonitorInput τ)) :
    ∃ order : List (FifoCall τ),
      Linearizes requestFifo (· ≠ .blocked) ⟨[], false⟩ (monitorHistory inputs) order ∧
        run requestFifo ⟨[], false⟩ (order.map Call.input) = (monitorRun inputs).queue.abstract ∧
        order.filterMap FifoCall.accepted =
          order.filterMap FifoCall.delivered ++ (monitorRun inputs).queue.messages := by
  have simulates : ∀ (s : WatchedMonitor τ) (x : MonitorInput τ) (a : AtomicFifo τ),
      StandsFor s a → ∃ a', AtomicStep requestFifo (· ≠ .blocked) a (watchedStep s x).2 a' ∧
        StandsFor (watchedStep s x).1 a' :=
    fun _ x _ related => related.step x
  obtain ⟨order, a, linearizes, object, related⟩ :=
    linearizes_of_simulation simulates .start inputs
  have queue : run requestFifo ⟨[], false⟩ (order.map Call.input) =
      (monitorRun inputs).queue.abstract := by
    rw [← object, related.object, run_watchedStep]
  refine ⟨order, linearizes, queue, ?_⟩
  have accepts : (trace requestFifo ⟨[], false⟩ (order.map Call.input)).filterMap
      FifoVisit.added = order.filterMap FifoCall.accepted := by
    apply filterMap_trace_of_legal _ linearizes.legal
    intro v c input output
    rw [FifoVisit.added, FifoCall.accepted, input, output]
    cases c.input <;> cases c.output <;> rfl
  have delivers : (trace requestFifo ⟨[], false⟩ (order.map Call.input)).filterMap
      FifoVisit.taken = order.filterMap FifoCall.delivered := by
    apply filterMap_trace_of_legal _ linearizes.legal
    intro v c input output
    rw [FifoVisit.taken, FifoCall.delivered, output]
    cases c.output <;> rfl
  have conserved := fifo_conservation udsQueueCap fitsSlot ⟨[], false⟩ (order.map Call.input)
  change [] ++ (trace requestFifo _ _).filterMap _ =
    (trace requestFifo _ _).filterMap _ ++ (run requestFifo _ _).items at conserved
  rw [accepts, delivers, queue] at conserved
  exact conserved

end VecuUds
