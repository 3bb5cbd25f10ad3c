import VecuUds.Queue.Linearize
import VecuUds.Queue.Settle
import VecuUds.Threads.Shutdown

/-!
# The process over the monitor

In `Process` a call of the queue is one step, tried again as long as it has to wait. Here
the threads make their calls in the monitor: they wait for its mutex, park, are woken by
signals and broadcasts or by themselves, and leave only when they have unlocked. The
arguments are checked before the mutex is taken, and a join waits until the thread it is
about has left its last call.

The process inside moves when a thread outside the monitor moves, and when a thread tests
inside it. What is left of a schedule when all other moves are dropped is a schedule of
`Process` with the same states. The moves inside the monitor are a run of the monitor with
the same queue. So everything that is known of the process and of the monitor is known of the
process over the monitor.
-/

namespace VecuUds

open Foundation

instance : Fintype ThreadName where
  elems := {.main, .rx, .dispatch, .app, .s3}
  complete := by
    intro t
    cases t <;> decide

/-- The call that a thread makes next. A push with a length out of range returns before it
gets to the mutex. -/
def Process.call (p : Process) : ThreadName → Option QueueCall
  | .main => if p.main = .shutdown then some .shutdown else none
  | .rx =>
      if p.pipe.rx.pc = .push then
        if inside : 1 ≤ p.pipe.rx.block.len ∧ p.pipe.rx.block.len ≤ udsMaxMsgLen then
          some (.push p.pipe.rx.block inside)
        else none
      else if p.pipe.rx.pc = .shutdown then some .shutdown
      else none
  | .dispatch => if p.pipe.dispatch.pc = .pop then some (.pop p.pipe.dispatch.msg) else none
  | .app => none
  | .s3 => none

/-- The thread whose end `main` waits for. -/
def Process.joining (p : Process) : Option ThreadName :=
  match p.main with
  | .joinRx => some .rx
  | .joinDispatch => some .dispatch
  | .joinApp => some .app
  | .joinS3 => some .s3
  | _ => none

namespace MonitorPc

/-- The call that a thread has made and that has not acted yet. -/
def trying : MonitorPc → Option QueueCall
  | .locking call => some call
  | .testing call => some call
  | .parked call => some call
  | .woken call => some call
  | _ => none

def isOutside : MonitorPc → Bool
  | .outside => true
  | _ => false

end MonitorPc

/-- The process, the owner of the queue's mutex and where the threads stand in the monitor. -/
structure WaitingProcess where
  process : Process
  owner : Option ThreadName
  pc : ThreadName → MonitorPc

/-- The next move: of a thread or a signal, with the threads that a `pthread_cond_signal`
reaches, and whether a parked thread wakes up by itself. -/
structure WaitingAction where
  action : ProcessAction
  reached : ThreadName → Bool
  spurious : Bool

namespace WaitingProcess

def monitor (w : WaitingProcess) : Monitor ThreadName := ⟨w.process.pipe.queue, w.owner, w.pc⟩

/-- `main` waits for a thread that is still in a call. -/
def joins (w : WaitingProcess) (t : ThreadName) : Bool :=
  match t, w.process.joining with
  | .main, some u => !(w.pc u).isOutside
  | _, _ => false

/-- A signal that reaches none of the parked threads is taken to reach them all. -/
def reaching (w : WaitingProcess) (c : Cond) (reached : ThreadName → Bool) : ThreadName → Bool :=
  if Reaches c reached w.pc then reached else fun _ => true

/-- The step of `Process` that a move takes, if it takes one. -/
def act (w : WaitingProcess) (x : WaitingAction) : Option ProcessAction :=
  match x.action.thread with
  | none => some x.action
  | some t =>
      match w.pc t with
      | .outside => if (w.process.call t).isNone && !w.joins t then some x.action else none
      | .testing _ => some x.action
      | _ => none

/-- The step of the monitor that a move of a thread takes, if it takes one. -/
def move (w : WaitingProcess) (t : ThreadName) (x : WaitingAction) :
    Option (MonitorInput ThreadName) :=
  match w.pc t with
  | .outside => (w.process.call t).map fun call => ⟨t, call, x.reached⟩
  | .parked _ => if x.spurious then some ⟨t, .shutdown, x.reached⟩ else none
  | .signalling c => some ⟨t, .shutdown, w.reaching c x.reached⟩
  | _ => some ⟨t, .shutdown, x.reached⟩

def input (w : WaitingProcess) (x : WaitingAction) : Option (MonitorInput ThreadName) :=
  x.action.thread.bind fun t => w.move t x

end WaitingProcess

def waitingStep (w : WaitingProcess) (x : WaitingAction) : WaitingProcess × Unit :=
  let m := run monitorStep w.monitor (w.input x).toList
  (⟨run processStep w.process (w.act x).toList, m.owner, m.pc⟩, ())

/-- The process when `main` has created the threads, everybody outside the monitor. -/
def WaitingProcess.start (boot : UInt64) (buf msg resp : UdsMsg) : WaitingProcess :=
  ⟨.start boot buf msg resp, none, fun _ => .outside⟩

def waitingRun (boot : UInt64) (buf msg resp : UdsMsg) (schedule : List WaitingAction) :
    WaitingProcess :=
  run waitingStep (.start boot buf msg resp) schedule

/-- The schedule of `Process` inside a schedule over the monitor. -/
def waitingActions (boot : UInt64) (buf msg resp : UdsMsg) (schedule : List WaitingAction) :
    List ProcessAction :=
  project waitingStep WaitingProcess.act (.start boot buf msg resp) schedule

/-- The steps of the monitor inside it. -/
def waitingInputs (boot : UInt64) (buf msg resp : UdsMsg) (schedule : List WaitingAction) :
    List (MonitorInput ThreadName) :=
  project waitingStep WaitingProcess.input (.start boot buf msg resp) schedule

/-- The process inside is a run of `Process`. -/
theorem waitingRun_process (boot : UInt64) (buf msg resp : UdsMsg)
    (schedule : List WaitingAction) :
    (waitingRun boot buf msg resp schedule).process =
      processRun boot buf msg resp (waitingActions boot buf msg resp schedule) :=
  run_project WaitingProcess.process (fun _ _ => rfl) _ schedule

/-! ## Calls and steps -/

section Monitors

variable {τ : Type} [DecidableEq τ] {s : Monitor τ}

theorem monitorTest_queue (s : Monitor τ) (i : τ) (call : QueueCall) :
    (monitorTest s i call).queue = (queueStep s.queue call.op).1 := by
  cases call with
  | push b inside =>
      simp only [monitorTest]
      cases (udsQueuePush s.queue b).2 <;> rfl
  | pop out =>
      simp only [monitorTest]
      cases (udsQueuePopBlocking s.queue out).2 <;> rfl
  | shutdown => rfl

theorem MonitorPc.trying_of_leaving {pc : MonitorPc} (leaves : pc.leaving = true) :
    pc.trying = none := by
  cases pc <;> first | rfl | cases leaves

theorem MonitorPc.trying_wake (c : Cond) (r : Bool) (pc : MonitorPc) :
    (pc.wake c r).trying = pc.trying := by
  cases pc with
  | parked call =>
      simp only [wake]
      split_ifs <;> rfl
  | _ => rfl

variable [Fintype τ]

theorem monitorStep_outside {i : τ} (stands : s.pc i = .outside) (call : QueueCall)
    (reached : τ → Bool) : (monitorStep s ⟨i, call, reached⟩).1 = s.goto i (.locking call) := by
  simp only [monitorStep, stands]

theorem monitorStep_testing {i : τ} {call : QueueCall} (stands : s.pc i = .testing call)
    (other : QueueCall) (reached : τ → Bool) :
    (monitorStep s ⟨i, other, reached⟩).1 = monitorTest s i call := by
  simp only [monitorStep, stands]

/-- Only a test touches the queue. -/
theorem monitorStep_queue {x : MonitorInput τ} (quiet : ∀ call, s.pc x.thread ≠ .testing call) :
    (monitorStep s x).1.queue = s.queue := by
  unfold monitorStep
  cases stands : s.pc x.thread with
  | testing call => exact absurd stands (quiet call)
  | locking call | woken call | signalling c =>
      dsimp only
      split_ifs <;> rfl
  | _ => rfl

/-- A step leaves the other threads where they are or wakes them. -/
theorem monitorStep_others {x : MonitorInput τ} {j : τ} (other : j ≠ x.thread) :
    (monitorStep s x).1.pc j = s.pc j ∨
      ∃ c r, (monitorStep s x).1.pc j = (s.pc j).wake c r := by
  have goto : ∀ (m : Monitor τ) (b : MonitorPc), (m.goto x.thread b).pc j = m.pc j :=
    fun m b => Function.update_of_ne other ..
  unfold monitorStep
  cases stands : s.pc x.thread with
  | testing call =>
      obtain ⟨b, moved, -, -⟩ := monitorTest_pc 0 s x.thread call
      dsimp only
      rw [moved, Function.update_of_ne other]
      exact .inl rfl
  | locking call | woken call =>
      dsimp only
      split_ifs
      · exact .inl (goto _ _)
      · exact .inl rfl
  | signalling c =>
      dsimp only
      split_ifs
      · exact .inr ⟨c, _, goto _ _⟩
      · exact .inl rfl
  | broadcasting c => exact .inr ⟨c, _, goto _ _⟩
  | _ => exact .inl (goto _ _)

/-- The others try what they have tried. -/
theorem monitorStep_trying_other {x : MonitorInput τ} {j : τ} (other : j ≠ x.thread) :
    ((monitorStep s x).1.pc j).trying = (s.pc j).trying := by
  rcases monitorStep_others (s := s) other with same | ⟨c, r, woken⟩
  · rw [same]
  · rw [woken, MonitorPc.trying_wake]

/-- Nobody brings another thread into the monitor. -/
theorem monitorStep_stays_outside {x : MonitorInput τ} {j : τ} (outside : s.pc j = .outside)
    (other : j ≠ x.thread) : (monitorStep s x).1.pc j = .outside := by
  rcases monitorStep_others (s := s) other with same | ⟨c, r, woken⟩
  · rw [same, outside]
  · rw [woken, outside]
    rfl

/-- A thread tries the same call as long as it neither enters nor tests. -/
theorem monitorStep_trying_self {x : MonitorInput τ} (inside : s.pc x.thread ≠ .outside)
    (quiet : ∀ call, s.pc x.thread ≠ .testing call) :
    ((monitorStep s x).1.pc x.thread).trying = (s.pc x.thread).trying := by
  have goto : ∀ (m : Monitor τ) (b : MonitorPc), (m.goto x.thread b).pc x.thread = b :=
    fun m b => Function.update_self ..
  unfold monitorStep
  cases stands : s.pc x.thread with
  | outside => exact absurd stands inside
  | testing call => exact absurd stands (quiet call)
  | locking call | woken call | signalling c =>
      dsimp only
      split_ifs
      · rw [goto]
        rfl
      · rw [stands]
  | broadcasting c =>
      dsimp only
      rw [goto]
      cases c <;> rfl
  | _ =>
      dsimp only
      rw [goto]
      rfl

end Monitors

section Calls

variable {p : Process} {a : ProcessAction} {t : ThreadName}

/-- What a thread will call is its own business. -/
theorem Process.call_frame (other : a.thread ≠ some t) :
    (processStep p a).1.call t = p.call t := by
  cases a with
  | signal wakes =>
      cases t with
      | main =>
          by_cases woken : wakes = true ∧ p.main = .pause
          · simp [processStep, Process.signalStep, Process.call, woken]
          · simp only [processStep, Process.signalStep, Process.call, if_neg woken]
      | _ => rfl
  | main =>
      have frame := p.mainStep_frame
      cases t with
      | main => exact absurd rfl other
      | rx => simp only [processStep, Process.call, frame.rx]
      | dispatch => simp only [processStep, Process.call, frame.dispatch]
      | _ => rfl
  | rx outcome =>
      have statement := rxStep_statement p.pipe outcome
      change Process.call { p with pipe := (rxStep p.pipe outcome).1 } t = p.call t
      generalize (rxStep p.pipe outcome).1 = s at statement ⊢
      cases t with
      | rx => exact absurd rfl other
      | _ => cases statement <;> rfl
  | dispatch amb =>
      have statement := dispatchStep_statement p.pipe amb
      change Process.call { p with pipe := (dispatchStep p.pipe amb).1 } t = p.call t
      generalize (dispatchStep p.pipe amb).1 = s at statement ⊢
      cases t with
      | dispatch => exact absurd rfl other
      | _ => cases statement <;> rfl
  | app amb =>
      obtain ⟨ecu, -, same⟩ := p.appStep_eq amb
      simp only [processStep, same]
      cases t <;> rfl
  | s3 amb =>
      obtain ⟨ecu, -, same⟩ := p.s3Step_eq amb
      simp only [processStep, same]
      cases t <;> rfl

/-- What the step of a thread does that is at a call: its section waits and nothing changes,
or the call acts and the thread goes on. -/
inductive CallEffect (p : Process) (call : QueueCall) : Process → Prop where
  | waits (blocked : (queueStep p.pipe.queue call.op).2.abstract = .blocked)
      (same : (queueStep p.pipe.queue call.op).1 = p.pipe.queue) : CallEffect p call p
  | acts (ended : (queueStep p.pipe.queue call.op).2.abstract ≠ .blocked) (p' : Process)
      (queue : p'.pipe.queue = (queueStep p.pipe.queue call.op).1) (less : p'.work < p.work) :
      CallEffect p call p'

theorem processStep_call (valid : p.pipe.queue.Valid) {call : QueueCall}
    (thread : a.thread = some t) (calls : p.call t = some call) :
    CallEffect p call (processStep p a).1 := by
  cases a with
  | signal wakes => cases thread
  | app amb =>
      cases thread
      cases calls
  | s3 amb =>
      cases thread
      cases calls
  | main =>
      cases thread
      simp only [Process.call] at calls
      split_ifs at calls with here
      cases calls
      refine .acts (by simp [queueStep, QueueCall.op, QueueReply.abstract]) _ ?_ ?_
      · simp only [processStep, Process.mainStep, here]
        rfl
      · simp [processStep, Process.mainStep, here, Process.work, MainPc.work, pipelineStep]
  | rx outcome =>
      cases thread
      simp only [Process.call] at calls
      split_ifs at calls with pushing inside shutting
      · cases calls
        have effect := udsQueuePush_effect valid p.pipe.rx.block
        have waits := @CallEffect.waits p (.push p.pipe.rx.block inside)
        have acts := @CallEffect.acts p (.push p.pipe.rx.block inside)
        simp only [QueueCall.op, queueStep] at waits acts
        simp only [processStep, pipelineStep, rxStep, pushing]
        generalize udsQueuePush p.pipe.queue p.pipe.rx.block = r at effect waits acts ⊢
        obtain ⟨q, result⟩ := r
        cases effect with
        | invalid outside => omega
        | full => exact waits rfl rfl
        | closed =>
            refine acts (by simp [QueueReply.abstract]) _ rfl ?_
            simp [Process.work, pushing, RxPc.work]
        | pushed =>
            refine acts (by simp [QueueReply.abstract]) _ rfl ?_
            simp [Process.work, pushing, RxPc.work]
      · cases calls
        refine .acts (by simp [queueStep, QueueCall.op, QueueReply.abstract]) _ ?_ ?_
        · simp only [processStep, pipelineStep, rxStep, shutting]
          rfl
        · simp [processStep, pipelineStep, rxStep, shutting, Process.work, RxPc.work]
  | dispatch amb =>
      cases thread
      simp only [Process.call] at calls
      split_ifs at calls with popping
      cases calls
      have effect := udsQueuePopBlocking_effect valid p.pipe.dispatch.msg
      have waits := @CallEffect.waits p (.pop p.pipe.dispatch.msg)
      have acts := @CallEffect.acts p (.pop p.pipe.dispatch.msg)
      simp only [QueueCall.op, queueStep] at waits acts
      simp only [processStep, pipelineStep, dispatchStep, popping]
      generalize udsQueuePopBlocking p.pipe.queue p.pipe.dispatch.msg = r at effect waits acts ⊢
      obtain ⟨q, result⟩ := r
      cases effect with
      | empty => exact waits rfl rfl
      | drained =>
          refine acts (by simp [QueueReply.abstract]) _ rfl ?_
          simp [Process.work, popping, DispatchPc.work]
      | popped =>
          refine acts (by simp [QueueReply.abstract]) _ rfl ?_
          simp [Process.work, popping, DispatchPc.work]

/-- A thread that is at no call leaves the queue alone. -/
theorem processStep_queue (calls : ∀ t, a.thread = some t → p.call t = none) :
    (processStep p a).1.pipe.queue = p.pipe.queue := by
  cases a with
  | signal wakes => rfl
  | app amb =>
      obtain ⟨ecu, -, same⟩ := p.appStep_eq amb
      simp only [processStep, same]
  | s3 amb =>
      obtain ⟨ecu, -, same⟩ := p.s3Step_eq amb
      simp only [processStep, same]
  | main =>
      have elsewhere : p.main ≠ .shutdown := by
        intro here
        have none := calls .main rfl
        simp [Process.call, here] at none
      simp only [processStep, Process.mainStep]
      cases pc : p.main with
      | shutdown => exact absurd pc elsewhere
      | joinRx | joinDispatch | joinApp | joinS3 =>
          dsimp only
          split_ifs <;> rfl
      | _ => rfl
  | rx outcome =>
      have none := calls .rx rfl
      simp only [processStep, pipelineStep, rxStep]
      cases pc : p.pipe.rx.pc with
      | push =>
          simp only [Process.call, pc, if_true] at none
          split_ifs at none with inside
          have outside : p.pipe.rx.block.len = 0 ∨ udsMaxMsgLen < p.pipe.rx.block.len := by omega
          simp only [udsQueuePush, dif_pos outside]
      | shutdown => simp [Process.call, pc] at none
      | recv =>
          cases outcome with
          | message bytes fits =>
              dsimp only
              split_ifs <;> rfl
          | _ => rfl
      | _ => rfl
  | dispatch amb =>
      have none := calls .dispatch rfl
      simp only [processStep, pipelineStep, dispatchStep]
      cases pc : p.pipe.dispatch.pc with
      | pop => simp [Process.call, pc] at none
      | _ => rfl

end Calls

/-! ## What a move does -/

section Moves

variable {w : WaitingProcess} {x : WaitingAction}

/-- The process with the owner and the threads of a monitor. -/
def WaitingProcess.within (m : Monitor ThreadName) (p : Process) : WaitingProcess :=
  ⟨p, m.owner, m.pc⟩

theorem WaitingProcess.monitor_within {m : Monitor ThreadName} {p : Process}
    (queue : p.pipe.queue = m.queue) : (WaitingProcess.within m p).monitor = m := by
  simp only [WaitingProcess.monitor, WaitingProcess.within, queue]

/-- Every kind of move: none, one of the process outside the monitor, one into the monitor,
the test of a call, or one of the other steps inside the monitor. -/
inductive WaitingMove (w : WaitingProcess) (x : WaitingAction) : WaitingProcess → Prop where
  | stays : WaitingMove w x w
  | process (free : ∀ t, x.action.thread = some t →
      w.pc t = .outside ∧ w.process.call t = none ∧ w.joins t = false) :
      WaitingMove w x { w with process := (processStep w.process x.action).1 }
  | enters (t : ThreadName) (call : QueueCall) (outside : w.pc t = .outside)
      (calls : w.process.call t = some call) :
      WaitingMove w x { w with pc := Function.update w.pc t (.locking call) }
  | tests (t : ThreadName) (call : QueueCall) (thread : x.action.thread = some t)
      (stands : w.pc t = .testing call) :
      WaitingMove w x
        (.within (monitorTest w.monitor t call) (processStep w.process x.action).1)
  | inside (y : MonitorInput ThreadName) (inside : w.pc y.thread ≠ .outside)
      (quiet : ∀ call, w.pc y.thread ≠ .testing call) :
      WaitingMove w x (.within (monitorStep w.monitor y).1 w.process)

theorem waitingStep_move (w : WaitingProcess) (x : WaitingAction) :
    WaitingMove w x (waitingStep w x).1 := by
  simp only [waitingStep, WaitingProcess.act, WaitingProcess.input]
  cases thread : x.action.thread with
  | none => exact .process (by simp [thread])
  | some t =>
      simp only [Option.bind_some, WaitingProcess.move]
      cases stands : w.pc t with
      | outside =>
          cases calls : w.process.call t with
          | none =>
              dsimp only
              split_ifs with free
              · refine .process fun u same => ?_
                rw [thread] at same
                cases same
                exact ⟨stands, calls, by simpa using free⟩
              · exact .stays
          | some call =>
              have entered := monitorStep_outside (s := w.monitor) stands call x.reached
              simp only [Option.map_some, Option.toList_some, run_cons, run_nil, entered]
              exact .enters t call stands calls
      | testing call =>
          have tested := monitorStep_testing (s := w.monitor) stands .shutdown x.reached
          simp only [Option.toList_some, run_cons, run_nil, tested]
          exact .tests t call thread stands
      | parked call =>
          dsimp only
          split_ifs
          · exact .inside _ (by simp [stands]) (by simp [stands])
          · exact .stays
      | _ => exact .inside _ (by simp [stands]) (by simp [stands])

/-- The threads inside the monitor are at the calls of the process. -/
structure Coherent (w : WaitingProcess) : Prop where
  valid : w.monitor.Valid
  awake : ShutdownAwake w.pc
  calls : ∀ t call, (w.pc t).trying = some call → w.process.call t = some call

/-- The test of a call and the step of the process are one and the same section. -/
theorem Coherent.tested (coherent : Coherent w) {t : ThreadName} {call : QueueCall}
    (thread : x.action.thread = some t) (stands : w.pc t = .testing call) :
    CallEffect w.process call (processStep w.process x.action).1 :=
  processStep_call coherent.valid.queue thread (coherent.calls t call (by rw [stands]; rfl))

theorem CallEffect.queue {p p' : Process} {call : QueueCall} (effect : CallEffect p call p') :
    p'.pipe.queue = (queueStep p.pipe.queue call.op).1 := by
  cases effect with
  | waits blocked same => exact same.symm
  | acts ended p' queue less => exact queue

theorem Coherent.move (coherent : Coherent w) {w' : WaitingProcess} (moves : WaitingMove w x w') :
    Coherent w' := by
  have step := coherent.valid.step
  cases moves with
  | stays => exact coherent
  | process free =>
      refine ⟨?_, coherent.awake, ?_⟩
      · have queue := processStep_queue fun t thread => (free t thread).2.1
        have same : WaitingProcess.monitor
            { w with process := (processStep w.process x.action).1 } = w.monitor := by
          simp only [WaitingProcess.monitor, queue]
        rw [same]
        exact coherent.valid
      · intro t call tries
        by_cases own : x.action.thread = some t
        · rw [(free t own).1] at tries
          cases tries
        · rw [Process.call_frame own]
          exact coherent.calls t call tries
  | enters t call outside calls =>
      refine ⟨?_, coherent.awake.update (by simp), ?_⟩
      · have entered := step ⟨t, call, fun _ => false⟩
        rwa [monitorStep_outside (s := w.monitor) outside] at entered
      · intro u tried tries
        by_cases same : u = t
        · subst same
          simp only [Function.update_self, MonitorPc.trying, Option.some.injEq] at tries
          rw [← tries]
          exact calls
        · simp only [Function.update_of_ne same] at tries
          exact coherent.calls u tried tries
  | tests t call thread stands =>
      have effect := coherent.tested thread stands
      have tested := step ⟨t, .shutdown, fun _ => false⟩
      rw [monitorStep_testing (s := w.monitor) stands] at tested
      have others : ∀ u, u ≠ t → (monitorTest w.monitor t call).pc u = w.pc u := by
        intro u other
        obtain ⟨b, moved, -, -⟩ := monitorTest_pc 0 w.monitor t call
        rw [moved]
        exact Function.update_of_ne other ..
      refine ⟨?_, ?_, ?_⟩
      · have queue := effect.queue.trans (monitorTest_queue w.monitor t call).symm
        rw [WaitingProcess.monitor_within queue]
        exact tested
      · obtain ⟨b, moved, -, other⟩ := monitorTest_pc 0 w.monitor t call
        simp only [WaitingProcess.within, moved]
        exact coherent.awake.update other
      · intro u tried tries
        by_cases own : u = t
        · subst own
          -- after its test the thread is parked at the same call, or it has acted
          have test := monitorTest_tested coherent.valid.queue u call
          simp only [WaitingProcess.within] at tries ⊢
          generalize monitorTest w.monitor u call = m at test tries
          generalize (processStep w.process x.action).1 = p at effect ⊢
          cases test with
          | waits blocked =>
              simp only [Function.update_self] at tries
              cases tries
              cases effect with
              | waits => exact coherent.calls u call (by rw [stands]; rfl)
              | acts ended => exact absurd blocked ended
          | acts ended pc leaves =>
              simp only [Function.update_self, MonitorPc.trying_of_leaving leaves] at tries
              cases tries
        · simp only [WaitingProcess.within, others u own] at tries ⊢
          rw [Process.call_frame (by rw [thread]; simpa using Ne.symm own)]
          exact coherent.calls u tried tries
  | inside y inside quiet =>
      have queue := monitorStep_queue (s := w.monitor) (x := y) quiet
      refine ⟨?_, ShutdownAwake.step (s := w.monitor) coherent.awake y, ?_⟩
      · rw [WaitingProcess.monitor_within queue.symm]
        exact step y
      · intro t call tries
        apply coherent.calls t call
        by_cases own : t = y.thread
        · subst own
          rw [← tries]
          exact (monitorStep_trying_self (s := w.monitor) inside quiet).symm
        · rw [← tries]
          exact (monitorStep_trying_other (s := w.monitor) own).symm

theorem Coherent.start (boot : UInt64) (buf msg resp : UdsMsg) :
    Coherent (.start boot buf msg resp) where
  valid := Monitor.Valid.start
  awake := by
    intro t
    simp [WaitingProcess.start]
  calls := by
    intro t call tries
    cases tries

/-- The process and the monitor inside do the same to the queue. -/
theorem Coherent.queue (coherent : Coherent w) (x : WaitingAction) :
    (run processStep w.process (w.act x).toList).pipe.queue =
      (run monitorStep w.monitor (w.input x).toList).queue := by
  simp only [WaitingProcess.act, WaitingProcess.input]
  cases thread : x.action.thread with
  | none => exact processStep_queue (by simp [thread])
  | some t =>
      have quiet : ∀ reached, (∀ call, w.pc t ≠ .testing call) → w.process.pipe.queue =
          (monitorStep w.monitor ⟨t, .shutdown, reached⟩).1.queue := by
        intro reached other
        exact (monitorStep_queue (s := w.monitor) (x := ⟨t, .shutdown, reached⟩) other).symm
      simp only [Option.bind_some, WaitingProcess.move]
      cases stands : w.pc t with
      | outside =>
          cases calls : w.process.call t with
          | none =>
              dsimp only
              split_ifs
              · refine processStep_queue fun u same => ?_
                rw [thread] at same
                cases same
                exact calls
              · rfl
          | some call =>
              have entered := monitorStep_outside (s := w.monitor) stands call x.reached
              simp only [Option.map_some, Option.toList_some, run_cons, run_nil, entered]
              rfl
      | testing call =>
          have tested := monitorStep_testing (s := w.monitor) stands .shutdown x.reached
          simp only [Option.toList_some, run_cons, run_nil, tested]
          have effect := coherent.tested thread stands
          exact effect.queue.trans (monitorTest_queue w.monitor t call).symm
      | parked call =>
          dsimp only
          split_ifs
          · exact quiet _ (by simp [stands])
          · rfl
      | _ => exact quiet _ (by simp [stands])

theorem waitingRun_coherent (boot : UInt64) (buf msg resp : UdsMsg)
    (schedule : List WaitingAction) : Coherent (waitingRun boot buf msg resp schedule) :=
  run_invariant waitingStep (P := Coherent)
    (fun w x coherent => coherent.move (waitingStep_move w x)) (.start boot buf msg resp) schedule

/-- The monitor inside is a run of the monitor. -/
theorem waitingRun_monitor (boot : UInt64) (buf msg resp : UdsMsg)
    (schedule : List WaitingAction) :
    (waitingRun boot buf msg resp schedule).monitor =
      monitorRun (waitingInputs boot buf msg resp schedule) := by
  induction schedule using List.reverseRecOn with
  | nil => rfl
  | append_singleton past x ih =>
      have here := (waitingRun_coherent boot buf msg resp past).queue x
      rw [waitingInputs, project_append, monitorRun, run_append]
      change _ = run monitorStep (monitorRun (waitingInputs boot buf msg resp past)) _
      rw [← ih, waitingRun, run_snoc]
      simp only [project, List.append_nil]
      exact congrArg (fun q => Monitor.mk q _ _) here

end Moves

/-! ## Who has left the monitor -/

section Departing

variable {p : Process} {a : ProcessAction} {t : ThreadName}

/-- `main` is behind the last call of a thread: its own behind the closing of the socket, that
of another thread behind the join. -/
def Process.Dismissed (p : Process) : ThreadName → Prop
  | .main => p.main.Past .close
  | .rx => p.main.Past .joinRx
  | .dispatch => p.main.Past .joinDispatch
  | .app => True
  | .s3 => True

theorem Process.call_of_dismissed (joined : Joined p) (dismissed : p.Dismissed t) :
    p.call t = none := by
  cases t with
  | main =>
      have elsewhere : p.main ≠ .shutdown := by
        intro here
        simp only [Process.Dismissed, here, MainPc.Past, MainPc.work] at dismissed
        omega
      simp only [Process.call, if_neg elsewhere]
  | rx =>
      have exited := joined.rx dismissed
      simp [Process.call, exited]
  | dispatch =>
      have exited := joined.dispatch dismissed
      simp [Process.call, exited]
  | app => rfl
  | s3 => rfl

/-- A thread is dismissed by a step of `main` that is at no call. -/
theorem Process.dismissed_step (later : (processStep p a).1.Dismissed t) :
    p.Dismissed t ∨
      a.thread = some .main ∧ p.call .main = none ∧ (t = .main ∨ p.joining = some t) := by
  have past : ∀ milestone, milestone.work < 9 → milestone ≠ .shutdown →
      (∀ q : Process, q.main = milestone → t = .main ∨ q.joining = some t) →
      (processStep p a).1.main.Past milestone →
      p.main.Past milestone ∨
        a.thread = some .main ∧ p.call .main = none ∧ (t = .main ∨ p.joining = some t) := by
    intro milestone once other joins reached
    cases a with
    | main =>
        rcases Process.mainStep_past once reached with earlier | here
        · exact .inl earlier
        · refine .inr ⟨rfl, ?_, joins p here⟩
          simp only [Process.call, here, if_neg other]
    | signal wakes =>
        left
        simp only [processStep, Process.signalStep] at reached
        split_ifs at reached with woken
        · exact absurd reached (MainPc.not_past_check _)
        · exact reached
    | rx outcome => exact .inl reached
    | dispatch amb => exact .inl reached
    | app amb =>
        obtain ⟨ecu, -, same⟩ := p.appStep_eq amb
        simp only [processStep, same] at reached
        exact .inl reached
    | s3 amb =>
        obtain ⟨ecu, -, same⟩ := p.s3Step_eq amb
        simp only [processStep, same] at reached
        exact .inl reached
  cases t with
  | main => exact past .close (by decide) (by decide) (fun _ _ => .inl rfl) later
  | rx =>
      exact past .joinRx (by decide) (by decide)
        (fun q here => .inr (by simp only [Process.joining, here])) later
  | dispatch =>
      exact past .joinDispatch (by decide) (by decide)
        (fun q here => .inr (by simp only [Process.joining, here])) later
  | app => exact .inl trivial
  | s3 => exact .inl trivial

variable {w w' : WaitingProcess} {x : WaitingAction}

/-- A dismissed thread has left the monitor. -/
def Departed (w : WaitingProcess) : Prop := ∀ t, w.process.Dismissed t → w.pc t = .outside

theorem Departed.move (departed : Departed w) (coherent : Coherent w) (joined : Joined w.process)
    (moves : WaitingMove w x w') : Departed w' := by
  intro t dismissed
  cases moves with
  | stays => exact departed t dismissed
  | process free =>
      rcases Process.dismissed_step dismissed with earlier | ⟨mover, -, own | joining⟩
      · exact departed t earlier
      · rw [own]
        exact (free .main mover).1
      · have left := (free .main mover).2.2
        simp only [WaitingProcess.joins, joining] at left
        cases stands : w.pc t with
        | outside => rfl
        | _ =>
            rw [stands] at left
            cases left
  | enters u call outside calls =>
      have other : t ≠ u := by
        rintro rfl
        exact absurd ((Process.call_of_dismissed joined dismissed).symm.trans calls) (by simp)
      simp only [Function.update_of_ne other]
      exact departed t dismissed
  | tests u call thread stands =>
      have calls := coherent.calls u call (by rw [stands]; rfl)
      have outside : w.pc t = .outside := by
        rcases Process.dismissed_step dismissed with earlier | ⟨mover, none, -⟩
        · exact departed t earlier
        · rw [thread] at mover
          cases mover
          exact absurd (none.symm.trans calls) (by simp)
      have other : t ≠ u := by
        rintro rfl
        exact absurd (outside.symm.trans stands) (by simp)
      obtain ⟨b, moved, -, -⟩ := monitorTest_pc 0 w.monitor u call
      simp only [WaitingProcess.within, moved, Function.update_of_ne other]
      exact outside
  | inside y inside quiet =>
      have outside := departed t dismissed
      have other : t ≠ y.thread := by
        rintro rfl
        exact inside outside
      exact monitorStep_stays_outside (s := w.monitor) outside other

variable (boot : UInt64) (buf msg resp : UdsMsg)

theorem waitingRun_joined (schedule : List WaitingAction) :
    Joined (waitingRun boot buf msg resp schedule).process := by
  rw [waitingRun_process]
  exact processRun_joined boot buf msg resp _

theorem waitingRun_departed (schedule : List WaitingAction) :
    Departed (waitingRun boot buf msg resp schedule) := by
  induction schedule using List.reverseRecOn with
  | nil => exact fun _ _ => rfl
  | append_singleton past x ih =>
      rw [waitingRun, run_snoc]
      exact ih.move (waitingRun_coherent boot buf msg resp past)
        (waitingRun_joined boot buf msg resp past) (waitingStep_move _ x)

/-- With everybody outside the mutex is free. -/
theorem Coherent.free {w : WaitingProcess} (coherent : Coherent w)
    (outside : ∀ t, w.pc t = .outside) : w.owner = none := by
  by_contra owned
  obtain ⟨t, owner⟩ := Option.ne_none_iff_exists'.mp owned
  have holds := (coherent.valid.exclusive t).mpr owner
  simp only [WaitingProcess.monitor, outside] at holds
  cases holds

/-- **Waiting changes nothing that can be seen.** In every schedule, with whatever waiting,
signals, broadcasts and spurious wake-ups in the monitor of the queue, the process is where
a schedule of the process with one step for each critical section leads, and the monitor is
where a schedule of the monitor leads. So the requests handled are the first of those
received, the ECU is in the state of a sequential server, and its answers are what has been
sent and is about to be sent. When `main` destroys the queue, its mutex is free and every
thread has left it. -/
theorem waiting_process_refines (schedule : List WaitingAction) :
    let w := waitingRun boot buf msg resp schedule
    let actions := waitingActions boot buf msg resp schedule
    let visits := pipelineVisits boot buf msg resp actions
    w.process = processRun boot buf msg resp actions ∧
      w.monitor = monitorRun (waitingInputs boot buf msg resp schedule) ∧
      (requests (handled visits) <+: received visits ∧
        w.process.pipe.ecu = serverRun boot (handled visits) ∧
        sent visits ++ w.process.pipe.dispatch.pending = answers boot (handled visits)) ∧
      (w.process.main.Destroying → w.owner = none ∧ ∀ t, w.pc t = .outside) := by
  intro w actions visits
  have same : w.process = processRun boot buf msg resp actions :=
    waitingRun_process boot buf msg resp schedule
  have faithful := processRun_faithful boot buf msg resp actions
  refine ⟨same, waitingRun_monitor boot buf msg resp schedule, ⟨?_, ?_, ?_⟩, ?_⟩
  · exact (List.prefix_append _ _).trans faithful.order
  · rw [same]
    exact faithful.ecu
  · rw [same]
    exact faithful.replies
  · intro destroying
    have past := MainPc.destroying_iff.mp destroying
    have outside : ∀ t, w.pc t = .outside := by
      intro t
      apply waitingRun_departed boot buf msg resp schedule t
      cases t with
      | app => trivial
      | s3 => trivial
      | _ => exact Nat.lt_trans past (by decide)
    exact ⟨(waitingRun_coherent boot buf msg resp schedule).free outside, outside⟩

end Departing

end VecuUds
