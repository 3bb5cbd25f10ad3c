import VecuUds.Threads.Process

/-!
# Orderly shutdown

After the stop flag is set, every statement that a thread executes brings it closer to
its end, with two exceptions: a push into a full queue and a pop from an empty one wait
as long as the queue is open. `main` closes the queue before it joins anyone, so once
`main` has left its sleep the process winds down under any scheduler that lets every
thread move now and then. `awaited` names the thread whose move counts next.
-/

namespace VecuUds

open Foundation

/-! ## Work left -/

/-- The most statements that the receiving thread executes until it ends, stop flag set
and queue closed. -/
def RxPc.work : RxPc → Nat
  | .recv => 4
  | .push => 3
  | .check => 2
  | .shutdown => 1
  | .exited => 0

def DispatchPc.work : DispatchPc → Nat
  | .pop => 4
  | .process => 3
  | .send => 2
  | .check => 1
  | .exited => 0

def WorkerPc.remaining : WorkerPc → Nat
  | .work => 3
  | .nap => 2
  | .check => 1
  | .exited => 0

/-- The statements of `main` until it returns, its sleep left out. -/
def MainPc.work : MainPc → Nat
  | .check => 9
  | .pause => 9
  | .shutdown => 8
  | .close => 7
  | .joinRx => 6
  | .joinDispatch => 5
  | .joinApp => 4
  | .joinS3 => 3
  | .destroyQueue => 2
  | .destroyState => 1
  | .returned => 0

def Process.work (p : Process) : Nat :=
  p.main.work + p.pipe.rx.pc.work + p.pipe.dispatch.pc.work + p.app.remaining + p.s3.remaining

/-- The threads of the process. -/
inductive ThreadName where
  | main
  | rx
  | dispatch
  | app
  | s3
  deriving DecidableEq, Repr

/-- The thread that takes an action; a signal is nobody's. -/
def ProcessAction.thread : ProcessAction → Option ThreadName
  | .signal _ => none
  | .main => some .main
  | .rx _ => some .rx
  | .dispatch _ => some .dispatch
  | .app _ => some .app
  | .s3 _ => some .s3

/-- The thread that `main` waits for in a join, else `main` itself. -/
def Process.awaited (p : Process) : ThreadName :=
  match p.main with
  | .joinRx => if p.pipe.rx.pc = .exited then .main else .rx
  | .joinDispatch => if p.pipe.dispatch.pc = .exited then .main else .dispatch
  | .joinApp => if p.app = .exited then .main else .app
  | .joinS3 => if p.s3 = .exited then .main else .s3
  | _ => .main

/-- `main` has executed a statement that it executes once. -/
def MainPc.Past (pc milestone : MainPc) : Prop := pc.work < milestone.work

theorem MainPc.not_past_check (milestone : MainPc) : ¬ MainPc.check.Past milestone := by
  cases milestone <;> simp [MainPc.Past, MainPc.work]

theorem MainPc.returned_past {milestone : MainPc} (other : milestone ≠ .returned) :
    MainPc.returned.Past milestone := by
  cases milestone <;> simp_all [MainPc.Past, MainPc.work]

/-- What `main` has waited for has happened. -/
structure Joined (p : Process) : Prop where
  shut : p.main.Past .shutdown → p.pipe.queue.closed = true
  rx : p.main.Past .joinRx → p.pipe.rx.pc = .exited
  dispatch : p.main.Past .joinDispatch → p.pipe.dispatch.pc = .exited
  app : p.main.Past .joinApp → p.app = .exited
  s3 : p.main.Past .joinS3 → p.s3 = .exited

/-- The stop flag is set and `main` is awake. -/
structure Stopping (p : Process) : Prop where
  stop : p.pipe.stop = true
  awake : p.main ≠ .pause
  joined : Joined p

@[simp] theorem RxPc.work_eq_zero {pc : RxPc} : pc.work = 0 ↔ pc = .exited := by
  cases pc <;> simp [RxPc.work]

@[simp] theorem DispatchPc.work_eq_zero {pc : DispatchPc} : pc.work = 0 ↔ pc = .exited := by
  cases pc <;> simp [DispatchPc.work]

@[simp] theorem WorkerPc.remaining_eq_zero {pc : WorkerPc} : pc.remaining = 0 ↔ pc = .exited := by
  cases pc <;> simp [WorkerPc.remaining]

@[simp] theorem MainPc.work_eq_zero {pc : MainPc} : pc.work = 0 ↔ pc = .returned := by
  cases pc <;> simp [MainPc.work]

/-! ## What one statement does -/

section Statements

/-- A statement of the receiving thread: one less to go, another turn of the loop, or a
wait at an open queue. -/
inductive RxStatement (s : Pipeline) : Pipeline → Prop where
  | moves (q : UdsQueue) (rx : RxThread) (closed : s.queue.closed = true → q.closed = true)
      (less : rx.pc.work < s.rx.pc.work) : RxStatement s { s with queue := q, rx := rx }
  | loops (running : s.stop = false) (pc : s.rx.pc = .check) :
      RxStatement s { s with rx := { s.rx with pc := .recv } }
  | waits (isOpen : s.queue.closed = false) : RxStatement s s
  | ended (exited : s.rx.pc = .exited) : RxStatement s s

theorem rxStep_statement (s : Pipeline) (outcome : KioRecv) :
    RxStatement s (rxStep s outcome).1 := by
  unfold rxStep
  cases pc : s.rx.pc with
  | check =>
      dsimp only
      split_ifs with stop
      · exact .moves s.queue _ id (by simp [pc, RxPc.work])
      · exact .loops (by simpa using stop) pc
  | recv =>
      cases outcome with
      | message bytes fits =>
          dsimp only
          split_ifs
          · exact .moves s.queue _ id (by simp [pc, RxThread.read, RxPc.work])
          · exact .moves s.queue _ id (by simp [pc, RxThread.read, RxPc.work])
      | _ => exact .moves s.queue _ id (by simp [pc, RxPc.work])
  | push =>
      have less : ∀ rc : Int,
          (if rc ≠ 0 then RxPc.shutdown else RxPc.check).work < s.rx.pc.work := by
        intro rc
        rw [pc]
        split_ifs <;> decide
      simp only [udsQueuePush]
      split_ifs with outside full closed
      · exact .moves s.queue _ id (less (-1))
      · exact .waits full.1
      · exact .moves s.queue _ id (less (-1))
      · exact .moves _ _ id (less 0)
  | shutdown => exact .moves (udsQueueShutdown s.queue) _ (fun _ => rfl) (by simp [pc, RxPc.work])
  | exited => exact .ended pc

/-- A statement of the dispatching thread, likewise. -/
inductive DispatchStatement (s : Pipeline) : Pipeline → Prop where
  | moves (q : UdsQueue) (d : DispatchThread) (ecu : EcuState)
      (closed : q.closed = s.queue.closed) (less : d.pc.work < s.dispatch.pc.work) :
      DispatchStatement s { s with queue := q, dispatch := d, ecu := ecu }
  | loops (running : s.stop = false) (pc : s.dispatch.pc = .check) :
      DispatchStatement s { s with dispatch := { s.dispatch with pc := .pop } }
  | waits (isOpen : s.queue.closed = false) : DispatchStatement s s
  | ended (exited : s.dispatch.pc = .exited) : DispatchStatement s s

theorem dispatchStep_statement (s : Pipeline) (amb : Ambient) :
    DispatchStatement s (dispatchStep s amb).1 := by
  unfold dispatchStep
  cases pc : s.dispatch.pc with
  | check =>
      dsimp only
      split_ifs with stop
      · exact .moves s.queue _ s.ecu rfl (by simp [pc, DispatchPc.work])
      · exact .loops (by simpa using stop) pc
  | pop =>
      have less : ∀ rc : Int,
          (if rc ≠ 0 then DispatchPc.exited else DispatchPc.process).work <
            s.dispatch.pc.work := by
        intro rc
        rw [pc]
        split_ifs <;> decide
      simp only [udsQueuePopBlocking]
      split_ifs with waits drained
      · exact .waits waits.1
      · exact .moves s.queue _ s.ecu rfl (less (-1))
      · exact .moves _ _ s.ecu rfl (less 0)
  | process =>
      refine .moves s.queue _ _ rfl ?_
      simp only [DispatchThread.answer, pc]
      split_ifs <;> decide
  | send => exact .moves s.queue _ s.ecu rfl (by simp [pc, DispatchPc.work])
  | exited => exact .ended pc

/-- A statement of the application or the S3 thread. -/
inductive WorkerStatement (stop : Bool) (pc : WorkerPc) : WorkerPc → Prop where
  | moves (next : WorkerPc) (less : next.remaining < pc.remaining) : WorkerStatement stop pc next
  | loops (running : stop = false) (check : pc = .check) : WorkerStatement stop pc .work
  | ended (exited : pc = .exited) : WorkerStatement stop pc pc

theorem WorkerPc.next_statement (stop : Bool) (pc : WorkerPc) :
    WorkerStatement stop pc (pc.next stop) := by
  cases pc with
  | check =>
      cases stop with
      | true => exact .moves .exited (by decide)
      | false => exact .loops rfl rfl
  | work => exact .moves .nap (by decide)
  | nap => exact .moves .check (by decide)
  | exited => exact .ended rfl

/-- The application thread moves its own counter and touches the ECU only. -/
theorem Process.appStep_eq (p : Process) (amb : Ambient) :
    ∃ ecu, (p.app ≠ .work → ecu = p.pipe.ecu) ∧ p.appStep amb =
      { p with pipe := { p.pipe with ecu := ecu }, app := p.app.next p.pipe.stop } := by
  unfold Process.appStep
  cases p.app with
  | work => exact ⟨_, fun idle => absurd rfl idle, rfl⟩
  | _ => exact ⟨p.pipe.ecu, fun _ => rfl, rfl⟩

theorem Process.s3Step_eq (p : Process) (amb : Ambient) :
    ∃ ecu, (p.s3 ≠ .work → ecu = p.pipe.ecu) ∧ p.s3Step amb =
      { p with pipe := { p.pipe with ecu := ecu }, s3 := p.s3.next p.pipe.stop } := by
  unfold Process.s3Step
  cases p.s3 with
  | work => exact ⟨_, fun idle => absurd rfl idle, rfl⟩
  | _ => exact ⟨p.pipe.ecu, fun _ => rfl, rfl⟩

/-- What `main` leaves alone; only its shutdown touches the queue. -/
structure MainFrame (p p' : Process) : Prop where
  rx : p'.pipe.rx = p.pipe.rx
  dispatch : p'.pipe.dispatch = p.pipe.dispatch
  stop : p'.pipe.stop = p.pipe.stop
  app : p'.app = p.app
  s3 : p'.s3 = p.s3
  closed : p.pipe.queue.closed = true → p'.pipe.queue.closed = true
  shuts : p.main = .shutdown → p'.pipe.queue.closed = true

theorem MainFrame.moves (p : Process) (next : MainPc) (isOpen : Bool) (other : p.main ≠ .shutdown) :
    MainFrame p { p with main := next, socketOpen := isOpen } :=
  ⟨rfl, rfl, rfl, rfl, rfl, id, fun here => absurd here other⟩

theorem Process.mainStep_frame (p : Process) : MainFrame p p.mainStep := by
  have stays : p.main ≠ .shutdown → MainFrame p p := .moves p p.main p.socketOpen
  unfold Process.mainStep
  cases pc : p.main with
  | shutdown => exact ⟨rfl, rfl, rfl, rfl, rfl, fun _ => rfl, fun _ => rfl⟩
  | joinRx | joinDispatch | joinApp | joinS3 =>
      dsimp only
      split_ifs
      · exact .moves p _ _ (by simp [pc])
      · exact stays (by simp [pc])
  | pause | returned => exact stays (by simp [pc])
  | check | close | destroyQueue | destroyState => exact .moves p _ _ (by simp [pc])

/-- `main` executes one statement at a time. -/
theorem Process.mainStep_work (p : Process) : p.main.work ≤ p.mainStep.main.work + 1 := by
  unfold Process.mainStep
  cases pc : p.main with
  | check | joinRx | joinDispatch | joinApp | joinS3 =>
      dsimp only
      split_ifs <;> simp [pc, MainPc.work]
  | _ => simp [pc, MainPc.work]

theorem MainPc.eq_of_work {pc milestone : MainPc} (same : pc.work = milestone.work)
    (once : milestone.work < 9) : pc = milestone := by
  cases milestone <;> cases pc <;> simp_all [MainPc.work]

/-- What `main` has executed after a step is the statement it was at or lies before it. -/
theorem Process.mainStep_past {p : Process} {milestone : MainPc} (once : milestone.work < 9)
    (past : p.mainStep.main.Past milestone) : p.main.Past milestone ∨ p.main = milestone := by
  have one := p.mainStep_work
  rcases Nat.lt_or_ge p.main.work milestone.work with earlier | here
  · exact .inl earlier
  · refine .inr (MainPc.eq_of_work ?_ once)
    simp only [MainPc.Past] at past
    omega

/-- `main` is past a join only if what it waits for there has happened. -/
theorem Process.joined_past {p : Process} {milestone : MainPc} {ended : Prop}
    (once : milestone.work < 9) (before : p.main.Past milestone → ended)
    (join : p.main = milestone → ¬ ended → p.mainStep = p)
    (past : p.mainStep.main.Past milestone) : ended := by
  rcases Process.mainStep_past once past with earlier | here
  · exact before earlier
  · by_contra busy
    rw [join here busy, here] at past
    exact absurd past (Nat.lt_irrefl _)

end Statements

/-! ## Joined threads stay joined -/

section Joining

variable {p : Process}

theorem Joined.rx_statement (joined : Joined p) {s : Pipeline} (statement : RxStatement p.pipe s) :
    Joined { p with pipe := s } := by
  cases statement with
  | moves q rx closed less =>
      refine ⟨fun past => closed (joined.shut past), fun past => ?_, joined.dispatch, joined.app,
        joined.s3⟩
      have exited := joined.rx past
      rw [exited] at less
      exact absurd less (Nat.not_lt_zero _)
  | loops running pc =>
      refine ⟨joined.shut, fun past => ?_, joined.dispatch, joined.app, joined.s3⟩
      exact absurd (pc.symm.trans (joined.rx past)) (by decide)
  | waits => exact joined
  | ended => exact joined

theorem Joined.dispatch_statement (joined : Joined p) {s : Pipeline}
    (statement : DispatchStatement p.pipe s) : Joined { p with pipe := s } := by
  cases statement with
  | moves q d ecu closed less =>
      refine ⟨fun past => closed.trans (joined.shut past), joined.rx, fun past => ?_, joined.app,
        joined.s3⟩
      have exited := joined.dispatch past
      rw [exited] at less
      exact absurd less (Nat.not_lt_zero _)
  | loops running pc =>
      refine ⟨joined.shut, joined.rx, fun past => ?_, joined.app, joined.s3⟩
      exact absurd (pc.symm.trans (joined.dispatch past)) (by decide)
  | waits => exact joined
  | ended => exact joined

theorem Joined.main (joined : Joined p) : Joined p.mainStep := by
  have frame := p.mainStep_frame
  refine ⟨fun past => ?_, fun past => ?_, fun past => ?_, fun past => ?_, fun past => ?_⟩
  · rcases Process.mainStep_past (by decide) past with earlier | here
    · exact frame.closed (joined.shut earlier)
    · exact frame.shuts here
  · rw [frame.rx]
    refine Process.joined_past (by decide) joined.rx (fun here busy => ?_) past
    simp only [Process.mainStep, here, if_neg busy]
  · rw [frame.dispatch]
    refine Process.joined_past (by decide) joined.dispatch (fun here busy => ?_) past
    simp only [Process.mainStep, here, if_neg busy]
  · rw [frame.app]
    refine Process.joined_past (by decide) joined.app (fun here busy => ?_) past
    simp only [Process.mainStep, here, if_neg busy]
  · rw [frame.s3]
    refine Process.joined_past (by decide) joined.s3 (fun here busy => ?_) past
    simp only [Process.mainStep, here, if_neg busy]

theorem Joined.step (joined : Joined p) (a : ProcessAction) : Joined (processStep p a).1 := by
  cases a with
  | signal wakes =>
      simp only [processStep, Process.signalStep]
      split_ifs with woken
      · constructor <;> intro past <;> exact absurd past (MainPc.not_past_check _)
      · exact ⟨joined.shut, joined.rx, joined.dispatch, joined.app, joined.s3⟩
  | main => exact joined.main
  | rx outcome => exact joined.rx_statement (rxStep_statement _ outcome)
  | dispatch amb => exact joined.dispatch_statement (dispatchStep_statement _ amb)
  | app amb =>
      obtain ⟨ecu, -, same⟩ := p.appStep_eq amb
      simp only [processStep, same]
      refine ⟨joined.shut, joined.rx, joined.dispatch, fun past => ?_, joined.s3⟩
      simp only [joined.app past, WorkerPc.next]
  | s3 amb =>
      obtain ⟨ecu, -, same⟩ := p.s3Step_eq amb
      simp only [processStep, same]
      refine ⟨joined.shut, joined.rx, joined.dispatch, joined.app, fun past => ?_⟩
      simp only [joined.s3 past, WorkerPc.next]

theorem Joined.start (boot : UInt64) (buf msg resp : UdsMsg) :
    Joined (.start boot buf msg resp) := by
  constructor <;> intro past <;> exact absurd past (MainPc.not_past_check _)

theorem processRun_joined (boot : UInt64) (buf msg resp : UdsMsg)
    (schedule : List ProcessAction) : Joined (processRun boot buf msg resp schedule) :=
  run_invariant processStep (P := Joined) (fun _ a joined => joined.step a)
    (.start boot buf msg resp) schedule

end Joining

/-! ## Winding down -/

section Winding

variable {p : Process}

/-- The state is one statement closer to its end, or nothing has changed and another thread
is awaited. -/
def Closer (p p' : Process) (mover : Option ThreadName) : Prop :=
  p'.work < p.work ∨ p' = p ∧ (mover = some p.awaited → p.work = 0)

/-- A thread that has ended is not awaited. -/
theorem awaited_ne_rx (exited : p.pipe.rx.pc = .exited) : p.awaited ≠ .rx := by
  unfold Process.awaited
  split <;> simp [exited] <;> split_ifs <;> simp

theorem awaited_ne_dispatch (exited : p.pipe.dispatch.pc = .exited) : p.awaited ≠ .dispatch := by
  unfold Process.awaited
  split <;> simp [exited] <;> split_ifs <;> simp

theorem awaited_ne_app (exited : p.app = .exited) : p.awaited ≠ .app := by
  unfold Process.awaited
  split <;> simp [exited] <;> split_ifs <;> simp

theorem awaited_ne_s3 (exited : p.s3 = .exited) : p.awaited ≠ .s3 := by
  unfold Process.awaited
  split <;> simp [exited] <;> split_ifs <;> simp

/-- `main` waits for another thread behind the shutdown of the queue only. -/
theorem closed_of_awaited (joined : Joined p) (other : p.awaited ≠ .main) :
    p.pipe.queue.closed = true := by
  apply joined.shut
  unfold Process.awaited at other
  cases pc : p.main <;> simp_all [MainPc.Past, MainPc.work]

/-- A thread that does nothing is not the awaited one. -/
theorem Closer.idle {name : ThreadName} (other : p.awaited ≠ name) : Closer p p (some name) :=
  .inr ⟨rfl, fun moves => absurd (Option.some.inj moves).symm other⟩

/-- Nobody waits for a thread that waits at an open queue. -/
theorem Closer.waits (joined : Joined p) (isOpen : p.pipe.queue.closed = false) {name : ThreadName}
    (other : name ≠ .main) : Closer p p (some name) := by
  apply Closer.idle
  intro awaits
  have closed := closed_of_awaited joined (awaits ▸ other)
  exact absurd (isOpen.symm.trans closed) (by decide)

theorem Stopping.rx (stopping : Stopping p) (outcome : KioRecv) :
    Closer p (processStep p (.rx outcome)).1 (some .rx) := by
  have statement := rxStep_statement p.pipe outcome
  change Closer p { p with pipe := (rxStep p.pipe outcome).1 } _
  generalize (rxStep p.pipe outcome).1 = s at statement ⊢
  cases statement with
  | moves q rx closed less =>
      left
      simp only [Process.work]
      omega
  | loops running => exact absurd (running.symm.trans stopping.stop) (by decide)
  | waits isOpen => exact .waits stopping.joined isOpen (by decide)
  | ended exited => exact .idle (awaited_ne_rx exited)

theorem Stopping.dispatch (stopping : Stopping p) (amb : Ambient) :
    Closer p (processStep p (.dispatch amb)).1 (some .dispatch) := by
  have statement := dispatchStep_statement p.pipe amb
  change Closer p { p with pipe := (dispatchStep p.pipe amb).1 } _
  generalize (dispatchStep p.pipe amb).1 = s at statement ⊢
  cases statement with
  | moves q d ecu closed less =>
      left
      simp only [Process.work]
      omega
  | loops running => exact absurd (running.symm.trans stopping.stop) (by decide)
  | waits isOpen => exact .waits stopping.joined isOpen (by decide)
  | ended exited => exact .idle (awaited_ne_dispatch exited)

/-- A worker that moves has less to do, and one that has ended is not awaited. -/
theorem Stopping.worker (stopping : Stopping p) {p' : Process} {pc next : WorkerPc}
    {name : ThreadName} (statement : WorkerStatement p.pipe.stop pc next)
    (work : p'.work + pc.remaining = p.work + next.remaining)
    (still : pc = .exited → next = .exited → p' = p) (other : pc = .exited → p.awaited ≠ name) :
    Closer p p' (some name) := by
  cases statement with
  | moves _ less =>
      left
      omega
  | loops running => exact absurd (running.symm.trans stopping.stop) (by decide)
  | ended exited =>
      rw [still exited exited]
      exact .idle (other exited)

theorem Stopping.app (stopping : Stopping p) (amb : Ambient) :
    Closer p (processStep p (.app amb)).1 (some .app) := by
  obtain ⟨ecu, idle, same⟩ := p.appStep_eq amb
  have statement := WorkerPc.next_statement p.pipe.stop p.app
  simp only [processStep, same]
  generalize p.app.next p.pipe.stop = next at statement ⊢
  refine stopping.worker statement ?_ ?_ awaited_ne_app
  · simp only [Process.work]
    omega
  · rintro exited rfl
    rw [idle (by rw [exited]; decide), ← exited]

theorem Stopping.s3 (stopping : Stopping p) (amb : Ambient) :
    Closer p (processStep p (.s3 amb)).1 (some .s3) := by
  obtain ⟨ecu, idle, same⟩ := p.s3Step_eq amb
  have statement := WorkerPc.next_statement p.pipe.stop p.s3
  simp only [processStep, same]
  generalize p.s3.next p.pipe.stop = next at statement ⊢
  refine stopping.worker statement ?_ ?_ awaited_ne_s3
  · simp only [Process.work]
    omega
  · rintro exited rfl
    rw [idle (by rw [exited]; decide), ← exited]

/-- A join moves on, or waits for another thread. -/
theorem closer_join {c : Prop} [Decidable c] {next : MainPc} (less : next.work < p.main.work)
    (waits : ¬ c → p.awaited ≠ .main) :
    Closer p (if c then { p with main := next } else p) (some .main) := by
  split_ifs with exited
  · left
    simp only [Process.work]
    omega
  · exact .idle (waits exited)

theorem Stopping.main (stopping : Stopping p) :
    Closer p (processStep p .main).1 (some .main) := by
  have joined := stopping.joined
  change Closer p p.mainStep _
  unfold Process.mainStep
  cases pc : p.main with
  | check =>
      left
      simp [Process.work, pc, stopping.stop, MainPc.work]
  | pause => exact absurd pc stopping.awake
  | joinRx => exact closer_join (by rw [pc]; decide) (by simp +contextual [Process.awaited, pc])
  | joinDispatch =>
      exact closer_join (by rw [pc]; decide) (by simp +contextual [Process.awaited, pc])
  | joinApp => exact closer_join (by rw [pc]; decide) (by simp +contextual [Process.awaited, pc])
  | joinS3 => exact closer_join (by rw [pc]; decide) (by simp +contextual [Process.awaited, pc])
  | returned =>
      refine .inr ⟨rfl, fun _ => ?_⟩
      have past : ∀ milestone, milestone ≠ .returned → p.main.Past milestone := by
        intro milestone other
        rw [pc]
        exact MainPc.returned_past other
      simp [Process.work, pc, joined.rx (past _ (by decide)), joined.dispatch (past _ (by decide)),
        joined.app (past _ (by decide)), joined.s3 (past _ (by decide)), MainPc.work, RxPc.work,
        DispatchPc.work, WorkerPc.remaining]
  | _ =>
      left
      simp [Process.work, pc, MainPc.work, pipelineStep]

theorem Stopping.closer (stopping : Stopping p) (a : ProcessAction) :
    Closer p (processStep p a).1 a.thread := by
  cases a with
  | signal wakes =>
      have same : (processStep p (.signal wakes)).1 = p := by
        have asleep : ¬ (wakes = true ∧ p.main = .pause) := fun woken => stopping.awake woken.2
        have set : (pipelineStep p.pipe .signal).1 = p.pipe := by
          simp only [pipelineStep, ← stopping.stop]
        simp only [processStep, Process.signalStep, set, if_neg asleep]
      exact .inr ⟨same, fun moves => absurd moves (by simp [ProcessAction.thread])⟩
  | main => exact stopping.main
  | rx outcome => exact stopping.rx outcome
  | dispatch amb => exact stopping.dispatch amb
  | app amb => exact stopping.app amb
  | s3 amb => exact stopping.s3 amb

/-- Nothing clears the stop flag. -/
theorem processStep_stop (stop : p.pipe.stop = true) (a : ProcessAction) :
    (processStep p a).1.pipe.stop = true := by
  cases a with
  | signal wakes => rfl
  | main => exact p.mainStep_frame.stop.trans stop
  | rx outcome =>
      have statement := rxStep_statement p.pipe outcome
      change (rxStep p.pipe outcome).1.stop = true
      generalize (rxStep p.pipe outcome).1 = s at statement ⊢
      cases statement <;> exact stop
  | dispatch amb =>
      have statement := dispatchStep_statement p.pipe amb
      change (dispatchStep p.pipe amb).1.stop = true
      generalize (dispatchStep p.pipe amb).1 = s at statement ⊢
      cases statement <;> exact stop
  | app amb =>
      obtain ⟨ecu, -, same⟩ := p.appStep_eq amb
      simp only [processStep, same, stop]
  | s3 amb =>
      obtain ⟨ecu, -, same⟩ := p.s3Step_eq amb
      simp only [processStep, same, stop]

/-- With the stop flag set, `main` does not go to sleep. -/
theorem Process.mainStep_awake (stop : p.pipe.stop = true) (awake : p.main ≠ .pause) :
    p.mainStep.main ≠ .pause := by
  unfold Process.mainStep
  cases pc : p.main with
  | check => simp [stop]
  | pause => exact absurd pc awake
  | joinRx | joinDispatch | joinApp | joinS3 =>
      dsimp only
      split_ifs <;> simp [pc]
  | _ => simp [pc]

theorem Stopping.step (stopping : Stopping p) (a : ProcessAction) :
    Stopping (processStep p a).1 := by
  obtain ⟨stop, awake, joined⟩ := stopping
  refine ⟨processStep_stop stop a, ?_, joined.step a⟩
  cases a with
  | signal wakes =>
      simp only [processStep, Process.signalStep]
      split_ifs
      · decide
      · exact awake
  | main => exact Process.mainStep_awake stop awake
  | rx outcome => exact awake
  | dispatch amb => exact awake
  | app amb =>
      obtain ⟨ecu, -, same⟩ := p.appStep_eq amb
      simpa only [processStep, same] using awake
  | s3 amb =>
      obtain ⟨ecu, -, same⟩ := p.s3Step_eq amb
      simpa only [processStep, same] using awake

/-- While the process stops, the awaited thread's move takes one from the work left. -/
theorem stopping_certificate :
    RankCertificate processStep ProcessAction.thread (fun _ => True) Stopping Process.work
      Process.awaited where
  preserved := fun _ a stopping _ => stopping.step a
  settles := by
    intro p a stopping _
    rcases stopping.closer a with less | ⟨same, -⟩
    · exact .inl less
    · exact .inr ⟨congrArg _ same, fun _ => congrArg _ same⟩
  helps := by
    intro p a stopping _ work moves
    rcases stopping.closer a with less | ⟨-, idle⟩
    · exact less
    · exact absurd (idle moves) work

theorem Process.work_le (p : Process) : p.work ≤ 23 := by
  have main : p.main.work ≤ 9 := by cases p.main <;> decide
  have rx : p.pipe.rx.pc.work ≤ 4 := by cases p.pipe.rx.pc <;> decide
  have dispatch : p.pipe.dispatch.pc.work ≤ 4 := by cases p.pipe.dispatch.pc <;> decide
  have app : p.app.remaining ≤ 3 := by cases p.app <;> decide
  have s3 : p.s3.remaining ≤ 3 := by cases p.s3 <;> decide
  simp only [Process.work]
  omega

/-- Every thread of the process has come to its end. -/
structure AllEnded (p : Process) : Prop where
  main : p.main = .returned
  rx : p.pipe.rx.pc = .exited
  dispatch : p.pipe.dispatch.pc = .exited
  app : p.app = .exited
  s3 : p.s3 = .exited

theorem AllEnded.of_work (done : p.work = 0) : AllEnded p := by
  simp only [Process.work, Nat.add_eq_zero_iff, MainPc.work_eq_zero, RxPc.work_eq_zero,
    DispatchPc.work_eq_zero, WorkerPc.remaining_eq_zero, and_assoc] at done
  obtain ⟨main, rx, dispatch, app, s3⟩ := done
  exact ⟨main, rx, dispatch, app, s3⟩

end Winding

/-- Without a signal that interrupts it, `pause` does not return. -/
theorem main_asleep {p : Process} (asleep : p.main = .pause) {schedule : List ProcessAction}
    (missed : ∀ a ∈ schedule, a ≠ .signal true) :
    (run processStep p schedule).main = .pause := by
  induction schedule generalizing p with
  | nil => exact asleep
  | cons a rest ih =>
      obtain ⟨here, later⟩ := List.forall_mem_cons.mp missed
      refine ih ?_ later
      cases a with
      | signal wakes =>
          have deaf : wakes = false := by simpa using here
          simp [processStep, Process.signalStep, deaf, asleep]
      | main => simp [processStep, Process.mainStep, asleep]
      | rx outcome => exact asleep
      | dispatch amb => exact asleep
      | app amb =>
          obtain ⟨ecu, -, same⟩ := p.appStep_eq amb
          simpa only [processStep, same] using asleep
      | s3 amb =>
          obtain ⟨ecu, -, same⟩ := p.s3Step_eq amb
          simpa only [processStep, same] using asleep

/-- **A stop ends the process unless `main` sleeps through it.** Whatever has happened so far,
once the stop flag is set and `main` is not in `pause`, twenty-three rounds of the scheduler
bring every thread to its end: none waits for ever at the queue or in a join. If `main` is in
`pause` with the flag set, it stays there until a signal interrupts it. -/
theorem process_returns (boot : UInt64) (buf msg resp : UdsMsg) (past : List ProcessAction)
    (rounds : List (List ProcessAction))
    (stop : (processRun boot buf msg resp past).pipe.stop = true)
    (fair : ∀ actions ∈ rounds, Round ProcessAction.thread actions) (enough : 23 ≤ rounds.length) :
    ((processRun boot buf msg resp past).main ≠ .pause →
        AllEnded (processRun boot buf msg resp (past ++ rounds.flatten))) ∧
      ((processRun boot buf msg resp past).main = .pause →
        (∀ a ∈ rounds.flatten, a ≠ .signal true) →
        (processRun boot buf msg resp (past ++ rounds.flatten)).main = .pause) := by
  constructor
  · intro awake
    have stopping : Stopping (processRun boot buf msg resp past) :=
      ⟨stop, awake, processRun_joined boot buf msg resp past⟩
    rw [processRun, run_append]
    apply AllEnded.of_work
    exact stopping_certificate.rank_rounds_eq_zero stopping fair (fun _ _ _ _ => trivial)
      (Nat.le_trans (Process.work_le _) enough)
  · intro asleep missed
    rw [processRun, run_append]
    exact main_asleep asleep missed

/-- One round in which every thread moves once, the clock standing at zero. -/
def stillRound : List ProcessAction :=
  [.main, .rx .timeout, .dispatch (.still 0), .app (.still 0), .s3 (.still 0)]

theorem round_stillRound : Round ProcessAction.thread stillRound := by
  intro agent
  cases agent <;> simp [stillRound, ProcessAction.thread]

theorem process_returns_after_signal :
    AllEnded (processRun 0 .zero .zero .zero
      ([.signal false] ++ (List.replicate 23 stillRound).flatten)) :=
  (process_returns 0 .zero .zero .zero [.signal false] (List.replicate 23 stillRound) rfl
    (fun _ member => List.eq_of_mem_replicate member ▸ round_stillRound) (by decide)).1 (by decide)

/-! ## Destroyed objects -/

/-- The statements of `main` from the first `destroy` on. -/
def MainPc.Destroying (pc : MainPc) : Prop :=
  pc = .destroyQueue ∨ pc = .destroyState ∨ pc = .returned

theorem MainPc.destroying_iff {pc : MainPc} : pc.Destroying ↔ pc.Past .joinS3 := by
  cases pc <;> simp [MainPc.Destroying, MainPc.Past, MainPc.work]

section Destroying

variable {p : Process}

/-- Nothing but the stop flag moves any more, and nothing is shown. -/
structure Inert (p p' : Process) (visits : List PipelineVisit) : Prop where
  queue : p'.pipe.queue = p.pipe.queue
  ecu : p'.pipe.ecu = p.pipe.ecu
  silent : ∀ v ∈ visits, v.output = none
  destroying : p'.main.Destroying

theorem destroying_step (joined : Joined p) (destroying : p.main.Destroying) (a : ProcessAction) :
    Inert p (processStep p a).1 (trace pipelineStep p.pipe (p.action a).toList) := by
  have past := MainPc.destroying_iff.mp destroying
  have rx : p.pipe.rx.pc = .exited := joined.rx (Nat.lt_trans past (by decide))
  have dispatch : p.pipe.dispatch.pc = .exited := joined.dispatch (Nat.lt_trans past (by decide))
  have app : p.app = .exited := joined.app (Nat.lt_trans past (by decide))
  have s3 : p.s3 = .exited := joined.s3 past
  cases a with
  | signal wakes =>
      refine ⟨rfl, rfl, ?_, ?_⟩
      · simp [Process.action, visit, pipelineStep]
      · simp only [processStep, Process.signalStep]
        rw [if_neg]
        · exact destroying
        · rintro ⟨-, asleep⟩
          rw [asleep] at destroying
          exact absurd destroying (by simp [MainPc.Destroying])
  | main =>
      rcases destroying with pc | pc | pc <;>
        constructor <;> simp [processStep, Process.mainStep, Process.action, pc, MainPc.Destroying]
  | rx outcome =>
      have still : rxStep p.pipe outcome = (p.pipe, none) := by simp only [rxStep, rx]
      refine ⟨?_, ?_, ?_, destroying⟩ <;>
        simp [processStep, Process.action, pipelineStep, visit, still]
  | dispatch amb =>
      have still : dispatchStep p.pipe amb = (p.pipe, none) := by simp only [dispatchStep, dispatch]
      refine ⟨?_, ?_, ?_, destroying⟩ <;>
        simp [processStep, Process.action, pipelineStep, visit, still]
  | app amb =>
      obtain ⟨ecu, idle, same⟩ := p.appStep_eq amb
      refine ⟨?_, ?_, ?_, ?_⟩
      all_goals
        simp [processStep, same, Process.action, app, idle, destroying]
  | s3 amb =>
      obtain ⟨ecu, idle, same⟩ := p.s3Step_eq amb
      refine ⟨?_, ?_, ?_, ?_⟩
      all_goals
        simp [processStep, same, Process.action, s3, idle, destroying]

theorem destroying_run (joined : Joined p) (destroying : p.main.Destroying)
    (future : List ProcessAction) :
    Inert p (run processStep p future) (trace pipelineStep p.pipe (p.actions future)) := by
  induction future generalizing p with
  | nil => exact ⟨rfl, rfl, by simp [Process.actions, project], destroying⟩
  | cons a rest ih =>
      have here := destroying_step joined destroying a
      have later := ih (joined.step a) here.destroying
      rw [run_cons, Process.actions_cons, trace_append, ← processStep_pipe]
      refine ⟨later.queue.trans here.queue, later.ecu.trans here.ecu, ?_, later.destroying⟩
      intro v member
      rcases List.mem_append.mp member with now | afterwards
      · exact here.silent v now
      · exact later.silent v afterwards

end Destroying

/-- Silent visits show nothing. -/
theorem events_append_silent (past : List PipelineVisit) {visits : List PipelineVisit}
    (silent : ∀ v ∈ visits, v.output = none) :
    received (past ++ visits) = received past ∧ handled (past ++ visits) = handled past ∧
      sent (past ++ visits) = sent past := by
  have nothing : ∀ {β : Type} (observe : PipelineVisit → Option β),
      (∀ v, v.output = none → observe v = none) → visits.filterMap observe = [] := by
    intro β observe blind
    exact List.filterMap_eq_nil_iff.mpr fun v member => blind v (silent v member)
  refine ⟨?_, ?_, ?_⟩
  · rw [received, List.filterMap_append, nothing _ (by intro v h; simp [h]), List.append_nil]
    rfl
  · rw [handled, List.filterMap_append, nothing _ (by intro v h; simp [h]), List.append_nil]
    rfl
  · rw [sent, List.filterMap_append, nothing _ (by intro v h; simp [h]), List.append_nil]
    rfl

/-- **Nothing uses what `main` destroys.** From the first `destroy` on, in every schedule, all
four threads have left their functions, queue and ECU stay as they are, and nothing more is
received, handled or sent. -/
theorem destroyed_is_unused (boot : UInt64) (buf msg resp : UdsMsg)
    (past future : List ProcessAction)
    (destroying : (processRun boot buf msg resp past).main.Destroying) :
    let p := processRun boot buf msg resp past
    let p' := processRun boot buf msg resp (past ++ future)
    let visits := pipelineVisits boot buf msg resp past
    let visits' := pipelineVisits boot buf msg resp (past ++ future)
    (p'.pipe.rx.pc = .exited ∧ p'.pipe.dispatch.pc = .exited ∧ p'.app = .exited ∧
        p'.s3 = .exited) ∧
      (p'.pipe.queue = p.pipe.queue ∧ p'.pipe.ecu = p.pipe.ecu) ∧
      received visits' = received visits ∧ handled visits' = handled visits ∧
      sent visits' = sent visits := by
  intro p p' visits visits'
  have joined : Joined p := processRun_joined boot buf msg resp past
  have joined' : Joined p' := processRun_joined boot buf msg resp (past ++ future)
  have inert := destroying_run joined destroying future
  have same : run processStep p future = p' := (run_append processStep _ past future).symm
  rw [same] at inert
  have past' := MainPc.destroying_iff.mp inert.destroying
  refine ⟨⟨?_, ?_, ?_, ?_⟩, ⟨inert.queue, inert.ecu⟩, ?_⟩
  · exact joined'.rx (Nat.lt_trans past' (by decide))
  · exact joined'.dispatch (Nat.lt_trans past' (by decide))
  · exact joined'.app (Nat.lt_trans past' (by decide))
  · exact joined'.s3 past'
  · rw [show visits' = visits ++ _ from pipelineVisits_append boot buf msg resp past future]
    exact events_append_silent visits inert.silent

/-- The shortest way to the first `destroy`: a signal, and each thread in the order of the
joins. -/
def promptStop : List ProcessAction :=
  [.signal false, .main, .main, .main, .rx .timeout, .rx .timeout, .main, .dispatch (.still 0),
    .main, .app (.still 0), .main, .s3 (.still 0), .main]

theorem destroyed_is_unused_after_stop :
    sent (pipelineVisits 0 .zero .zero .zero (promptStop ++ [.main, .rx .timeout])) =
      sent (pipelineVisits 0 .zero .zero .zero promptStop) :=
  (destroyed_is_unused 0 .zero .zero .zero promptStop [.main, .rx .timeout]
    (.inl rfl)).2.2.2.2

end VecuUds
