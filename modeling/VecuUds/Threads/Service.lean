import VecuUds.Threads.Flow

/-!
# Every request is served

As long as no signal arrives, the queue is closed only by a receiving thread that has
ended, after a read error. No message is refused, and the dispatching thread ends only
when nothing is left. So every received message is handled, however the threads are
scheduled and whatever is received meanwhile: the messages in flight at some time are
counted down, and `servingRank` bounds the moves until the last of them is handled.
-/

namespace VecuUds

open Foundation

/-- The state of a process that has not been signalled. -/
structure Serving (p : Process) : Prop where
  running : p.pipe.stop = false
  idle : p.main = .check ∨ p.main = .pause
  valid : p.pipe.queue.Valid
  filled : p.pipe.rx.pc = .push → 1 ≤ p.pipe.rx.len
  closed : p.pipe.queue.closed = true → p.pipe.rx.pc = .exited
  drained : p.pipe.dispatch.pc = .exited →
    p.pipe.queue.closed = true ∧ p.pipe.queue.messages = []

/-- A signal is none of the allowed actions. -/
def Unsignalled (a : ProcessAction) : Prop := ∀ wakes, a ≠ .signal wakes

/-! ## The receiving thread -/

section Receiving

variable {s : Pipeline}

/-- A step of the receiving thread at a queue that it alone can close. -/
inductive RxService (s : Pipeline) : Pipeline → Prop where
  | elsewhere (rx : RxThread) (before : s.rx.pc ≠ .push) (after : rx.pc ≠ .push)
      (loops : rx.pc = .exited ↔ s.rx.pc = .exited) : RxService s { s with rx := rx }
  | reads (rx : RxThread) (before : s.rx.pc = .recv) (after : rx.pc = .push) (some : 1 ≤ rx.len) :
      RxService s { s with rx := rx }
  | waits (before : s.rx.pc = .push) (full : s.queue.messages.length = udsQueueCap) : RxService s s
  | pushes (q : UdsQueue) (before : s.rx.pc = .push) (valid : q.Valid) (isOpen : q.closed = false)
      (appended : q.messages = s.queue.messages ++ s.rx.inHand) :
      RxService s { s with queue := q, rx := { s.rx with pc := .check } }
  | ends (before : s.rx.pc = .shutdown) :
      RxService s { s with queue := udsQueueShutdown s.queue, rx := { s.rx with pc := .exited } }

theorem rxStep_service (running : s.stop = false) (valid : s.queue.Valid)
    (filled : s.rx.pc = .push → 1 ≤ s.rx.len)
    (closed : s.queue.closed = true → s.rx.pc = .exited) (outcome : KioRecv) :
    RxService s (rxStep s outcome).1 := by
  unfold rxStep
  cases pc : s.rx.pc with
  | check => exact .elsewhere _ (by simp [pc]) (by simp [running]) (by simp [pc, running])
  | recv =>
      cases outcome with
      | message bytes fits =>
          dsimp only
          split_ifs with empty
          · exact .elsewhere _ (by simp [pc]) (by simp [RxThread.read])
              (by simp [pc, RxThread.read])
          · exact .reads _ pc rfl (Nat.one_le_iff_ne_zero.mpr empty)
      | _ => exact .elsewhere _ (by simp [pc]) (by simp) (by simp [pc])
  | push =>
      have effect := udsQueuePush_effect valid s.rx.block
      generalize udsQueuePush s.queue s.rx.block = r at effect ⊢
      obtain ⟨q, r⟩ := r
      have length : 1 ≤ s.rx.block.len ∧ s.rx.block.len ≤ udsMaxMsgLen := ⟨filled pc, s.rx.fits⟩
      cases effect with
      | invalid outside => omega
      | full isOpen full => exact .waits pc (by rw [UdsQueue.length_messages, full])
      | closed shut => exact absurd (pc.symm.trans (closed shut)) (by decide)
      | pushed isOpen room inside stored stillOpen appended =>
          refine .pushes q pc stored stillOpen ?_
          rw [appended, RxThread.inHand, if_pos pc]
  | shutdown => exact .ends pc
  | exited => exact .elsewhere _ (by simp [pc]) (by simp [pc]) (by simp [pc])

end Receiving

/-! ## The dispatching thread -/

section Dispatching

variable {s : Pipeline}

/-- A step of the dispatching thread while the stop flag is clear. -/
inductive DispatchService (s : Pipeline) : Pipeline → Prop where
  | loops (before : s.dispatch.pc = .check) :
      DispatchService s { s with dispatch := { s.dispatch with pc := .pop } }
  | waits (before : s.dispatch.pc = .pop) (empty : s.queue.messages = []) : DispatchService s s
  | ends (before : s.dispatch.pc = .pop) (closed : s.queue.closed = true)
      (empty : s.queue.messages = []) :
      DispatchService s { s with dispatch := { s.dispatch with pc := .exited } }
  | pops (q : UdsQueue) (m : UdsMsg) (before : s.dispatch.pc = .pop) (valid : q.Valid)
      (closed : q.closed = s.queue.closed) (oldest : s.queue.messages = m.bytes :: q.messages) :
      DispatchService s
        { s with queue := q, dispatch := { s.dispatch with pc := .process, msg := m } }
  | handles (ecu : EcuState) (d : DispatchThread) (before : s.dispatch.pc = .process)
      (after : d.pc = .check ∨ d.pc = .send) :
      DispatchService s { s with ecu := ecu, dispatch := d }
  | sends (before : s.dispatch.pc = .send) :
      DispatchService s { s with dispatch := { s.dispatch with pc := .check } }
  | ended (before : s.dispatch.pc = .exited) : DispatchService s s

theorem dispatchStep_service (running : s.stop = false) (valid : s.queue.Valid) (amb : Ambient) :
    DispatchService s (dispatchStep s amb).1 := by
  unfold dispatchStep
  cases pc : s.dispatch.pc with
  | check =>
      have next : (if s.stop = true then DispatchPc.exited else .pop) = .pop := by
        rw [running]
        rfl
      dsimp only
      rw [next]
      exact .loops pc
  | pop =>
      have effect := udsQueuePopBlocking_effect valid s.dispatch.msg
      generalize udsQueuePopBlocking s.queue s.dispatch.msg = r at effect ⊢
      obtain ⟨q, r⟩ := r
      cases effect with
      | empty isOpen empty => exact .waits pc empty
      | drained closed empty => exact .ends pc closed empty
      | popped left closed m inside oldest => exact .pops q m pc left closed oldest
  | process =>
      refine .handles _ _ pc ?_
      simp only [DispatchThread.answer]
      split_ifs <;> simp
  | send => exact .sends pc
  | exited => exact .ended pc

end Dispatching

/-! ## Serving goes on -/

section Serving

variable {p : Process}

theorem Serving.rx (serving : Serving p) {s : Pipeline} (service : RxService p.pipe s) :
    Serving { p with pipe := s } := by
  obtain ⟨running, idle, valid, filled, closed, drained⟩ := serving
  cases service with
  | elsewhere rx before after loops =>
      exact ⟨running, idle, valid, fun pushing => absurd pushing after,
        fun shut => loops.mpr (closed shut), drained⟩
  | reads rx before after some =>
      refine ⟨running, idle, valid, fun _ => some, fun shut => ?_, drained⟩
      exact absurd (before.symm.trans (closed shut)) (by decide)
  | waits => exact ⟨running, idle, valid, filled, closed, drained⟩
  | pushes q before stored isOpen appended =>
      refine ⟨running, idle, stored, fun pushing => absurd pushing (by simp), fun shut => ?_,
        fun exited => ?_⟩
      · exact absurd (isOpen.symm.trans shut) (by decide)
      · exact absurd (before.symm.trans (closed (drained exited).1)) (by decide)
  | ends before =>
      exact ⟨running, idle, valid.shutdown, fun pushing => absurd pushing (by simp), fun _ => rfl,
        fun exited => ⟨rfl, (drained exited).2⟩⟩

theorem Serving.dispatch (serving : Serving p) {s : Pipeline}
    (service : DispatchService p.pipe s) : Serving { p with pipe := s } := by
  obtain ⟨running, idle, valid, filled, closed, drained⟩ := serving
  cases service with
  | loops =>
      exact ⟨running, idle, valid, filled, closed, fun exited => absurd exited (by simp)⟩
  | waits => exact ⟨running, idle, valid, filled, closed, drained⟩
  | ends before shut empty => exact ⟨running, idle, valid, filled, closed, fun _ => ⟨shut, empty⟩⟩
  | pops q m before left same oldest =>
      exact ⟨running, idle, left, filled, fun shut => closed (same.symm.trans shut),
        fun exited => absurd exited (by simp)⟩
  | handles ecu d before after =>
      refine ⟨running, idle, valid, filled, closed, fun exited => ?_⟩
      rcases after with check | send
      · exact absurd (check.symm.trans exited) (by decide)
      · exact absurd (send.symm.trans exited) (by decide)
  | sends =>
      exact ⟨running, idle, valid, filled, closed, fun exited => absurd exited (by simp)⟩
  | ended => exact ⟨running, idle, valid, filled, closed, drained⟩

/-- Without a signal `main` only goes to sleep. -/
theorem Serving.mainStep_eq (serving : Serving p) :
    ∃ pc, (pc = .check ∨ pc = .pause) ∧ p.mainStep = { p with main := pc } := by
  unfold Process.mainStep
  rcases serving.idle with pc | pc
  · simp only [pc, serving.running, Bool.false_eq_true, if_false]
    exact ⟨.pause, .inr rfl, rfl⟩
  · simp only [pc]
    exact ⟨.pause, .inr rfl, by rw [← pc]⟩

theorem Serving.step (serving : Serving p) {a : ProcessAction} (quiet : Unsignalled a) :
    Serving (processStep p a).1 := by
  cases a with
  | signal wakes => exact absurd rfl (quiet wakes)
  | main =>
      obtain ⟨pc, idle, same⟩ := serving.mainStep_eq
      simp only [processStep, same]
      exact { serving with idle := idle }
  | rx outcome =>
      exact serving.rx
        (rxStep_service serving.running serving.valid serving.filled serving.closed outcome)
  | dispatch amb => exact serving.dispatch (dispatchStep_service serving.running serving.valid amb)
  | app amb =>
      obtain ⟨ecu, -, same⟩ := p.appStep_eq amb
      simp only [processStep, same]
      exact { serving with }
  | s3 amb =>
      obtain ⟨ecu, -, same⟩ := p.s3Step_eq amb
      simp only [processStep, same]
      exact { serving with }

theorem Serving.start (boot : UInt64) (buf msg resp : UdsMsg) :
    Serving (.start boot buf msg resp) where
  running := rfl
  idle := .inl rfl
  valid := .init
  filled := by simp [Process.start, Pipeline.start]
  closed := by simp [Process.start, Pipeline.start, udsQueueInit]
  drained := by simp [Process.start, Pipeline.start]

end Serving

/-! ## Counting down -/

/-- The moves of the dispatching thread until it handles its next message. -/
def DispatchPc.distance : DispatchPc → Nat
  | .process => 0
  | .pop => 1
  | .check => 2
  | .send => 3
  | .exited => 0

/-- The requests that the ECU handles in a step of the process. -/
def Process.served (p : Process) (a : ProcessAction) : List (List UInt8) :=
  requests (handled (trace pipelineStep p.pipe (p.action a).toList))

/-- The process with the number of messages that are still to be handled. -/
def countdownStep (s : Process × Nat) (a : ProcessAction) : (Process × Nat) × Unit :=
  (((processStep s.1 a).1, s.2 - (s.1.served a).length), ())

/-- A bound on the moves until the counted messages are handled. The push of the last one, out
of the hands of the receiving thread, counts too. -/
def servingRank (s : Process × Nat) : Nat :=
  if s.2 = 0 then 0
  else
    4 * s.2 + s.1.pipe.dispatch.pc.distance +
      if s.1.pipe.rx.pc = .push ∧ s.2 = s.1.pipe.inFlight.length then 1 else 0

/-- The thread whose move counts: the receiving thread if the dispatching one waits. -/
def servingThread (s : Process × Nat) : ThreadName :=
  if s.1.pipe.dispatch.pc = .pop ∧ s.1.pipe.queue.messages = [] then .rx else .dispatch

/-- The counted messages are among those in flight. -/
structure Counting (s : Process × Nat) : Prop where
  serving : Serving s.1
  among : s.2 ≤ s.1.pipe.inFlight.length

section Countdown

variable {p : Process} {k : Nat}

theorem run_countdownStep (p : Process) (k : Nat) (schedule : List ProcessAction) :
    (run countdownStep (p, k) schedule).1 = run processStep p schedule ∧
      (run countdownStep (p, k) schedule).2 =
        k - (requests (handled (trace pipelineStep p.pipe (p.actions schedule)))).length := by
  induction schedule generalizing p k with
  | nil => exact ⟨rfl, rfl⟩
  | cons a rest ih =>
      obtain ⟨states, counts⟩ := ih (processStep p a).1 (k - (p.served a).length)
      refine ⟨states, ?_⟩
      rw [run_cons, countdownStep, counts, Process.actions_cons, trace_append,
        ← processStep_pipe, handled_append, requests_append, List.length_append, Process.served,
        Nat.sub_sub]

/-- With nothing left to count the rank is zero. -/
@[simp] theorem servingRank_zero (p : Process) : servingRank (p, 0) = 0 := by
  simp [servingRank]

/-- What a step of the countdown has to show. -/
def CountsDown (s s' : Process × Nat) (mover : Option ThreadName) : Prop :=
  s'.2 ≤ s'.1.pipe.inFlight.length ∧
    (servingRank s' < servingRank s ∨
      servingRank s' = servingRank s ∧ (servingRank s ≠ 0 → servingThread s' = servingThread s) ∧
        (mover = some (servingThread s) → servingRank s = 0))

/-- The receiving thread is awaited only if all that is counted is in its hands. -/
theorem Counting.pushing (counting : Counting (p, k)) (work : servingRank (p, k) ≠ 0)
    (waits : servingThread (p, k) = .rx) :
    p.pipe.rx.pc = .push ∧ p.pipe.queue.messages = [] ∧ k = p.pipe.inFlight.length := by
  have among : k ≤ p.pipe.inFlight.length := counting.among
  have dispatch : p.pipe.dispatch.pc = .pop ∧ p.pipe.queue.messages = [] := by
    by_contra other
    rw [servingThread, if_neg other] at waits
    exact absurd waits (by decide)
  have some : k ≠ 0 := by
    rintro rfl
    exact work (servingRank_zero p)
  have all : p.pipe.inFlight = p.pipe.rx.inHand := by
    simp [Pipeline.inFlight, DispatchThread.inProcess, dispatch]
  have pushing : p.pipe.rx.pc = .push := by
    by_contra other
    rw [all, RxThread.inHand, if_neg other, List.length_nil] at among
    omega
  refine ⟨pushing, dispatch.2, ?_⟩
  rw [all, RxThread.inHand, if_pos pushing, List.length_singleton] at among ⊢
  omega

/-- With nothing left to count every step will do. -/
theorem CountsDown.zero (p p' : Process) (mover : Option ThreadName) :
    CountsDown (p, 0) (p', 0) mover :=
  ⟨Nat.zero_le _, .inr ⟨by simp, fun work => absurd (servingRank_zero p) work,
    fun _ => servingRank_zero p⟩⟩

/-- A move that changes neither the rank nor the awaited thread. -/
theorem Counting.stays (counting : Counting (p, k)) {p' : Process} {mover : Option ThreadName}
    (longer : p.pipe.inFlight.length ≤ p'.pipe.inFlight.length)
    (rank : servingRank (p', k) = servingRank (p, k))
    (thread : servingThread (p', k) = servingThread (p, k))
    (idle : mover = some (servingThread (p, k)) → servingRank (p, k) = 0) :
    CountsDown (p, k) (p', k) mover :=
  ⟨Nat.le_trans counting.among longer, .inr ⟨rank, fun _ => thread, idle⟩⟩

/-- A receiving thread that is not pushing is not awaited. -/
theorem Counting.not_pushing (counting : Counting (p, k)) (other : p.pipe.rx.pc ≠ .push)
    (moves : some ThreadName.rx = some (servingThread (p, k))) : servingRank (p, k) = 0 := by
  by_contra work
  exact other (counting.pushing work (Option.some.inj moves).symm).1

theorem Counting.rx (counting : Counting (p, k)) {s : Pipeline} (service : RxService p.pipe s) :
    CountsDown (p, k) ({ p with pipe := s }, k) (some .rx) := by
  have among : k ≤ p.pipe.inFlight.length := counting.among
  cases service with
  | elsewhere rx before after loops =>
      have same : Pipeline.inFlight { p.pipe with rx := rx } = p.pipe.inFlight := by
        simp [Pipeline.inFlight, RxThread.inHand, before, after]
      have rank : servingRank ({ p with pipe := { p.pipe with rx := rx } }, k) =
          servingRank (p, k) := by
        simp [servingRank, before, after]
      exact counting.stays (by rw [same]) rank rfl (counting.not_pushing before)
  | reads rx before after some =>
      have longer : Pipeline.inFlight { p.pipe with rx := rx } =
          p.pipe.inFlight ++ [rx.block.bytes] := by
        simp [Pipeline.inFlight, RxThread.inHand, before, after]
      have rank : servingRank ({ p with pipe := { p.pipe with rx := rx } }, k) =
          servingRank (p, k) := by
        have earlier : k ≠ p.pipe.inFlight.length + 1 := by omega
        simp [servingRank, before, longer, earlier]
      have other : p.pipe.rx.pc ≠ .push := by simp [before]
      refine counting.stays ?_ rank rfl (counting.not_pushing other)
      simp [longer]
  | waits before full =>
      refine counting.stays (Nat.le_refl _) rfl rfl fun moves => ?_
      by_contra work
      rw [(counting.pushing work (Option.some.inj moves).symm).2.1] at full
      exact absurd full (by decide)
  | pushes q before valid isOpen appended =>
      let s' : Pipeline := { p.pipe with queue := q, rx := { p.pipe.rx with pc := .check } }
      have same : s'.inFlight = p.pipe.inFlight := by
        simp [s', Pipeline.inFlight, RxThread.inHand, appended]
      by_cases none : k = 0
      · subst none
        exact .zero p _ _
      by_cases last : k = p.pipe.inFlight.length
      · refine ⟨by rw [same]; exact among, .inl ?_⟩
        simp [servingRank, none, before, ← last]
      · have rank : servingRank ({ p with pipe := s' }, k) = servingRank (p, k) := by
          simp [s', servingRank, last]
        have filled : q.messages ≠ [] := by
          rw [appended, RxThread.inHand, if_pos before]
          simp
        refine ⟨by rw [same]; exact among, .inr ⟨rank, fun work => ?_, fun moves => ?_⟩⟩
        · have dispatch : servingThread (p, k) ≠ .rx := fun waits =>
            last (counting.pushing work waits).2.2
          simp only [servingThread] at dispatch ⊢
          split_ifs at dispatch with empty
          · exact absurd rfl dispatch
          · rw [if_neg (fun now => filled now.2)]
            rw [if_neg empty]
        · by_contra work
          exact last (counting.pushing work (Option.some.inj moves).symm).2.2
  | ends before =>
      let s' : Pipeline :=
        { p.pipe with
          queue := udsQueueShutdown p.pipe.queue, rx := { p.pipe.rx with pc := .exited } }
      have same : s'.inFlight = p.pipe.inFlight := by
        simp [s', Pipeline.inFlight, RxThread.inHand, before, udsQueueShutdown, UdsQueue.messages]
      have rank : servingRank ({ p with pipe := s' }, k) = servingRank (p, k) := by
        simp [s', servingRank, before]
      have other : p.pipe.rx.pc ≠ .push := by simp [before]
      exact counting.stays (by rw [same]) rank rfl (counting.not_pushing other)

/-- With the queue closed and empty nothing is in flight but what is being processed. -/
theorem Serving.nothing_inFlight (serving : Serving p) (closed : p.pipe.queue.closed = true)
    (empty : p.pipe.queue.messages = []) (other : p.pipe.dispatch.pc ≠ .process) :
    p.pipe.inFlight = [] := by
  have exited := serving.closed closed
  simp [Pipeline.inFlight, DispatchThread.inProcess, RxThread.inHand, empty, other, exited]

theorem Counting.dispatch (counting : Counting (p, k)) {s : Pipeline}
    (service : DispatchService p.pipe s) {out : List (List UInt8)}
    (flow : p.pipe.inFlight = out ++ s.inFlight) :
    CountsDown (p, k) ({ p with pipe := s }, k - out.length) (some .dispatch) := by
  have among : k ≤ p.pipe.inFlight.length := counting.among
  have length : p.pipe.inFlight.length = out.length + s.inFlight.length := by
    rw [flow, List.length_append]
  by_cases none : k = 0
  · subst none
    rw [Nat.zero_sub]
    exact .zero p _ _
  refine ⟨by dsimp only; omega, ?_⟩
  have kept : s.inFlight = p.pipe.inFlight → out.length = 0 := by
    intro same
    rw [same] at length
    omega
  -- the rank goes down with the distance as long as the messages in flight are the same
  have nearer : s.inFlight = p.pipe.inFlight → s.rx = p.pipe.rx →
      s.dispatch.pc.distance < p.pipe.dispatch.pc.distance →
      servingRank ({ p with pipe := s }, k - out.length) < servingRank (p, k) := by
    intro same rx less
    rw [kept same, Nat.sub_zero]
    simp only [servingRank, none, if_false, same, rx]
    omega
  cases service with
  | loops before =>
      refine .inl (nearer ?_ rfl ?_)
      · simp [Pipeline.inFlight, DispatchThread.inProcess, before]
      · simp [before, DispatchPc.distance]
  | waits before empty =>
      rw [kept rfl, Nat.sub_zero]
      refine .inr ⟨rfl, fun _ => rfl, fun moves => ?_⟩
      simp [servingThread, before, empty] at moves
  | ends before closed empty =>
      have nothing : p.pipe.inFlight = [] :=
        counting.serving.nothing_inFlight closed empty (by simp [before])
      rw [nothing] at among
      exact absurd (Nat.le_zero.mp among) none
  | pops q m before valid closed oldest =>
      refine .inl (nearer ?_ rfl ?_)
      · simp [Pipeline.inFlight, DispatchThread.inProcess, before, oldest]
      · simp [before, DispatchPc.distance]
  | handles ecu d before after =>
      let s' : Pipeline := { p.pipe with ecu := ecu, dispatch := d }
      have away : d.pc ≠ .process := by rcases after with pc | pc <;> simp [pc]
      have shorter : p.pipe.inFlight.length = s'.inFlight.length + 1 := by
        simp [s', Pipeline.inFlight, DispatchThread.inProcess, before, away]
      have one : out.length = 1 := by
        have here : p.pipe.inFlight.length = out.length + s'.inFlight.length := length
        omega
      have near : d.pc.distance ≤ 3 := by cases d.pc <;> decide
      left
      change servingRank ({ p with pipe := s' }, k - out.length) < _
      rw [one]
      have last : k - 1 = s'.inFlight.length ↔ k = p.pipe.inFlight.length := by omega
      by_cases only : k = 1
      · simp only [servingRank, only, Nat.sub_self, if_true, Nat.one_ne_zero, if_false]
        omega
      · have some : k - 1 ≠ 0 := by omega
        have rx : s'.rx = p.pipe.rx := rfl
        simp only [servingRank, none, some, if_false, last, before, rx, DispatchPc.distance]
        change 4 * (k - 1) + d.pc.distance + _ < _
        omega
  | sends before =>
      refine .inl (nearer ?_ rfl ?_)
      · simp [Pipeline.inFlight, DispatchThread.inProcess, before]
      · simp [before, DispatchPc.distance]
  | ended before =>
      obtain ⟨closed, empty⟩ := counting.serving.drained before
      have nothing : p.pipe.inFlight = [] :=
        counting.serving.nothing_inFlight closed empty (by simp [before])
      rw [nothing] at among
      exact absurd (Nat.le_zero.mp among) none

/-- The threads that touch no message leave the count alone. -/
theorem Counting.background (counting : Counting (p, k)) {p' : Process}
    (dispatch : p'.pipe.dispatch = p.pipe.dispatch) (queue : p'.pipe.queue = p.pipe.queue)
    (rx : p'.pipe.rx = p.pipe.rx) {mover : ThreadName} (other : mover ≠ .rx ∧ mover ≠ .dispatch) :
    CountsDown (p, k) (p', k) (some mover) := by
  have same : p'.pipe.inFlight = p.pipe.inFlight := by
    simp only [Pipeline.inFlight, dispatch, queue, rx]
  refine counting.stays (by rw [same]) ?_ ?_ fun moves => ?_
  · simp only [servingRank, dispatch, same, rx]
  · simp only [servingThread, dispatch, queue]
  · rw [Option.some.inj moves, servingThread] at other
    split_ifs at other
    · exact absurd rfl other.1
    · exact absurd rfl other.2

theorem Counting.countsDown (counting : Counting (p, k)) {a : ProcessAction}
    (quiet : Unsignalled a) :
    CountsDown (p, k) (countdownStep (p, k) a).1 a.thread := by
  have serving : Serving p := counting.serving
  cases a with
  | signal wakes => exact absurd rfl (quiet wakes)
  | main =>
      have still : p.served .main = [] := by
        have awake : p.main ≠ .shutdown := by rcases serving.idle with pc | pc <;> simp [pc]
        simp [Process.served, Process.action, awake, handled, requests]
      obtain ⟨pc, -, same⟩ := serving.mainStep_eq
      simp only [countdownStep, still, processStep, List.length_nil, Nat.sub_zero,
        same]
      exact counting.background rfl rfl rfl ⟨by decide, by decide⟩
  | rx outcome =>
      have still : p.served (.rx outcome) = [] := requests_rx p.pipe outcome
      simp only [countdownStep, still, List.length_nil, Nat.sub_zero]
      exact counting.rx
        (rxStep_service serving.running serving.valid serving.filled serving.closed outcome)
  | dispatch amb =>
      exact counting.dispatch (dispatchStep_service serving.running serving.valid amb)
        (dispatchStep_inFlight serving.valid amb)
  | app amb =>
      have still : p.served (.app amb) = [] := by
        simp only [Process.served, Process.action]
        split_ifs <;> rfl
      obtain ⟨ecu, -, same⟩ := p.appStep_eq amb
      simp only [countdownStep, still, processStep, same, List.length_nil, Nat.sub_zero]
      exact counting.background rfl rfl rfl ⟨by decide, by decide⟩
  | s3 amb =>
      have still : p.served (.s3 amb) = [] := by
        simp only [Process.served, Process.action]
        split_ifs <;> rfl
      obtain ⟨ecu, -, same⟩ := p.s3Step_eq amb
      simp only [countdownStep, still, processStep, same, List.length_nil, Nat.sub_zero]
      exact counting.background rfl rfl rfl ⟨by decide, by decide⟩

end Countdown

/-- While no signal arrives, the awaited thread's move brings the last counted message closer. -/
theorem serving_certificate :
    RankCertificate countdownStep ProcessAction.thread Unsignalled Counting servingRank
      servingThread where
  preserved := fun _ _ counting quiet =>
    ⟨counting.serving.step quiet, (counting.countsDown quiet).1⟩
  settles := by
    intro s a counting quiet
    rcases (counting.countsDown quiet).2 with less | ⟨same, still, -⟩
    · exact .inl less
    · exact .inr ⟨same, still⟩
  helps := by
    intro s a counting quiet work moves
    rcases (counting.countsDown quiet).2 with less | ⟨-, -, idle⟩
    · exact less
    · exact absurd (idle moves) work

/-- While nothing is refused, a step keeps the received messages handled or in flight. -/
theorem Serving.whole_step {p : Process} (serving : Serving p) {a : ProcessAction}
    (quiet : Unsignalled a) {visits : List PipelineVisit}
    (whole : received visits = requests (handled visits) ++ p.pipe.inFlight) :
    let new := trace pipelineStep p.pipe (p.action a).toList
    received (visits ++ new) =
      requests (handled (visits ++ new)) ++ (processStep p a).1.pipe.inFlight := by
  intro new
  rw [received_append, handled_append, requests_append, whole]
  -- a step that shows no message and moves none
  have still : ∀ p' : Process, received new = [] → requests (handled new) = [] →
      p'.pipe.inFlight = p.pipe.inFlight →
      requests (handled visits) ++ p.pipe.inFlight ++ received new =
        requests (handled visits) ++ requests (handled new) ++ p'.pipe.inFlight := by
    intro p' unread unhandled same
    rw [unread, unhandled, same, List.append_nil, List.append_nil]
  cases a with
  | signal wakes => exact absurd rfl (quiet wakes)
  | main =>
      obtain ⟨pc, -, same⟩ := serving.mainStep_eq
      have awake : p.main ≠ .shutdown := by rcases serving.idle with pc | pc <;> simp [pc]
      have nothing : new = [] := by simp [new, Process.action, awake]
      refine still _ ?_ ?_ ?_
      · rw [nothing]
        rfl
      · rw [nothing]
        rfl
      · simp only [processStep, same]
  | rx outcome =>
      have unhandled : requests (handled new) = [] := requests_rx p.pipe outcome
      rw [unhandled, List.append_nil, List.append_assoc]
      cases rxStep_flow serving.valid outcome with
      | kept extended reading looping => exact congrArg _ extended.symm
      | refused pc leaves dropped silent reason =>
          rcases reason with closed | empty
          · exact absurd (pc.symm.trans (serving.closed closed)) (by decide)
          · exact absurd empty (Nat.one_le_iff_ne_zero.mp (serving.filled pc))
  | dispatch amb =>
      have unread : received new = [] := received_dispatch p.pipe amb
      rw [unread, List.append_nil, List.append_assoc]
      exact congrArg _ (dispatchStep_inFlight serving.valid amb)
  | app amb =>
      obtain ⟨ecu, -, same⟩ := p.appStep_eq amb
      refine still _ ?_ ?_ (by simp only [processStep, same]; rfl)
      all_goals
        simp only [new, Process.action]
        split_ifs <;> rfl
  | s3 amb =>
      obtain ⟨ecu, -, same⟩ := p.s3Step_eq amb
      refine still _ ?_ ?_ (by simp only [processStep, same]; rfl)
      all_goals
        simp only [new, Process.action]
        split_ifs <;> rfl

/-- Without a signal every received message is handled or in flight. -/
theorem serving_whole (boot : UInt64) (buf msg resp : UdsMsg) {schedule : List ProcessAction}
    (quiet : ∀ a ∈ schedule, Unsignalled a) :
    Serving (processRun boot buf msg resp schedule) ∧
      received (pipelineVisits boot buf msg resp schedule) =
        requests (handled (pipelineVisits boot buf msg resp schedule)) ++
          (processRun boot buf msg resp schedule).pipe.inFlight := by
  induction schedule using List.reverseRecOn with
  | nil =>
      refine ⟨.start boot buf msg resp, ?_⟩
      obtain ⟨lost, -, none, whole⟩ := Conserved.start boot buf msg resp
      rw [none (by simp [RxThread.Looping, Pipeline.start]), List.append_nil] at whole
      exact whole
  | append_singleton past a ih =>
      obtain ⟨quiet, here⟩ := List.forall_mem_append.mp quiet
      have unsignalled : Unsignalled a := here a List.mem_cons_self
      obtain ⟨serving, whole⟩ := ih quiet
      have after : processRun boot buf msg resp (past ++ [a]) =
          (processStep (processRun boot buf msg resp past) a).1 := run_snoc ..
      rw [pipelineVisits_append, after]
      generalize processRun boot buf msg resp past = p at serving whole ⊢
      generalize pipelineVisits boot buf msg resp past = visits at whole ⊢
      have step := serving.whole_step unsignalled whole
      rw [Process.actions_cons, show Process.actions (processStep p a).1 [] = [] from rfl,
        List.append_nil]
      exact ⟨serving.step unsignalled, step⟩

/-! ## Responses -/

/-- The other threads leave the dispatching thread alone and send nothing. -/
theorem processStep_dispatch {p : Process} {a : ProcessAction}
    (other : a.thread ≠ some .dispatch) :
    (processStep p a).1.pipe.dispatch = p.pipe.dispatch ∧
      sent (trace pipelineStep p.pipe (p.action a).toList) = [] := by
  rw [processStep_pipe]
  cases a with
  | signal wakes => exact ⟨rfl, rfl⟩
  | main =>
      simp only [Process.action]
      split_ifs <;> exact ⟨rfl, rfl⟩
  | rx outcome =>
      have statement := rxStep_statement p.pipe outcome
      have output : (visit pipelineStep p.pipe (.rx outcome)).output =
          (rxStep p.pipe outcome).2 := rfl
      constructor
      · change (rxStep p.pipe outcome).1.dispatch = _
        generalize (rxStep p.pipe outcome).1 = s at statement ⊢
        cases statement <;> rfl
      · rcases rxStep_event p.pipe outcome with silent | ⟨bytes, event⟩
        · simp [sent, Process.action, output, silent]
        · simp [sent, Process.action, output, event]
  | dispatch amb => exact absurd rfl other
  | app amb =>
      simp only [Process.action]
      split_ifs <;> exact ⟨rfl, rfl⟩
  | s3 amb =>
      simp only [Process.action]
      split_ifs <;> exact ⟨rfl, rfl⟩

/-- Once the dispatching thread has moved, the response it had computed is sent. -/
theorem pending_sent {p : Process} {schedule : List ProcessAction}
    (moves : ∃ a ∈ schedule, a.thread = some .dispatch) :
    p.pipe.dispatch.pending <+: sent (trace pipelineStep p.pipe (p.actions schedule)) := by
  induction schedule generalizing p with
  | nil =>
      obtain ⟨a, member, -⟩ := moves
      exact absurd member List.not_mem_nil
  | cons a rest ih =>
      rw [Process.actions_cons, trace_append, ← processStep_pipe, sent, List.filterMap_append,
        ← sent, ← sent]
      by_cases here : a.thread = some .dispatch
      · cases a with
        | dispatch amb =>
            by_cases sending : p.pipe.dispatch.pc = .send
            · have now : sent (trace pipelineStep p.pipe (p.action (.dispatch amb)).toList) =
                  p.pipe.dispatch.pending := by
                simp [sent, Process.action, visit, pipelineStep, dispatchStep, sending,
                  DispatchThread.pending]
              rw [now]
              exact List.prefix_append _ _
            · simp [DispatchThread.pending, sending]
        | _ => simp [ProcessAction.thread] at here
      · obtain ⟨j, member, helping⟩ := moves
        have later : ∃ a ∈ rest, a.thread = some .dispatch := by
          rcases List.mem_cons.mp member with rfl | member
          · exact absurd helping here
          · exact ⟨j, member, helping⟩
        obtain ⟨same, silent⟩ := processStep_dispatch (p := p) here
        rw [silent, List.nil_append, ← same]
        exact ih later

/-- The longest wait: a message being processed, a full queue and one more in hand. -/
theorem servingRank_le {p : Process} (serving : Serving p) :
    servingRank (p, p.pipe.inFlight.length) ≤ 41 := by
  have queued : p.pipe.queue.messages.length ≤ 8 := by
    rw [UdsQueue.length_messages]
    exact serving.valid.ring.bounded
  have hand : p.pipe.rx.inHand.length ≤ 1 := by
    simp only [RxThread.inHand]
    split_ifs <;> simp
  have length : p.pipe.inFlight.length = p.pipe.dispatch.inProcess.length +
      p.pipe.queue.messages.length + p.pipe.rx.inHand.length := by
    simp only [Pipeline.inFlight, List.length_append]
  have process : 4 * p.pipe.dispatch.inProcess.length + p.pipe.dispatch.pc.distance ≤ 4 := by
    simp only [DispatchThread.inProcess]
    cases p.pipe.dispatch.pc <;> simp [DispatchPc.distance]
  simp only [servingRank]
  split_ifs <;> omega

theorem counted_of_rank {s : Process × Nat} (done : servingRank s = 0) : s.2 = 0 := by
  by_contra some
  rw [servingRank, if_neg some] at done
  omega

section Served

variable (boot : UInt64) (buf msg resp : UdsMsg)

/-- Forty-one rounds bring every message in flight to the ECU. -/
theorem received_handled {past : List ProcessAction} {rounds : List (List ProcessAction)}
    (quiet : ∀ a ∈ past ++ rounds.flatten, Unsignalled a)
    (fair : ∀ actions ∈ rounds, Round ProcessAction.thread actions) (enough : 41 ≤ rounds.length) :
    received (pipelineVisits boot buf msg resp past) <+:
      requests (handled (pipelineVisits boot buf msg resp (past ++ rounds.flatten))) := by
  obtain ⟨-, wholeAfter⟩ := serving_whole boot buf msg resp quiet
  obtain ⟨quiet, later⟩ := List.forall_mem_append.mp quiet
  obtain ⟨serving, whole⟩ := serving_whole boot buf msg resp quiet
  rw [pipelineVisits_append] at wholeAfter ⊢
  generalize processRun boot buf msg resp past = p at serving whole wholeAfter ⊢
  generalize pipelineVisits boot buf msg resp past = visits at whole wholeAfter ⊢
  have counting : Counting (p, p.pipe.inFlight.length) := ⟨serving, Nat.le_refl _⟩
  have all : ∀ actions ∈ rounds, ∀ a ∈ actions, Unsignalled a := fun actions member a inside =>
    later a (List.mem_flatten.mpr ⟨actions, member, inside⟩)
  have done := counted_of_rank (serving_certificate.rank_rounds_eq_zero counting fair all
    (Nat.le_trans (servingRank_le serving) enough))
  rw [(run_countdownStep p p.pipe.inFlight.length rounds.flatten).2] at done
  generalize trace pipelineStep p.pipe (p.actions rounds.flatten) = new at done wholeAfter ⊢
  have longer : received visits <+: received (visits ++ new) := by
    rw [received_append]
    exact List.prefix_append _ _
  have inside : requests (handled (visits ++ new)) <+: received (visits ++ new) := by
    rw [wholeAfter]
    exact List.prefix_append _ _
  refine List.prefix_of_prefix_length_le longer inside ?_
  rw [whole, handled_append, requests_append, List.length_append, List.length_append]
  omega

/-- **Every request is served.** In a process that is not signalled, however its threads are
scheduled and whatever is received meanwhile, forty-two rounds of the scheduler suffice for
every message received before them: the ECU has handled them all, in order, and the responses
that the sequential server gives up to the last of them have been sent. An S3 iteration is one
complete step, as it is for that server. A receiving thread that has ended after a read error
makes no difference. -/
theorem every_request_is_served (past : List ProcessAction) (rounds : List (List ProcessAction))
    (quiet : ∀ a ∈ past ++ rounds.flatten, Unsignalled a)
    (fair : ∀ actions ∈ rounds, Round ProcessAction.thread actions) (enough : 42 ≤ rounds.length) :
    let visits := pipelineVisits boot buf msg resp (past ++ rounds.flatten)
    ∃ inputs, inputs <+: handled visits ∧
      received (pipelineVisits boot buf msg resp past) <+: requests inputs ∧
      answers boot inputs <+: sent visits := by
  intro visits
  -- the last round sends what may be left after the others
  let first := rounds.take 41
  have split : past ++ rounds.flatten = past ++ first.flatten ++ (rounds.drop 41).flatten := by
    rw [List.append_assoc, ← List.flatten_append, List.take_append_drop]
  have early : received (pipelineVisits boot buf msg resp past) <+:
      requests (handled (pipelineVisits boot buf msg resp (past ++ first.flatten))) := by
    refine received_handled boot buf msg resp ?_ ?_ ?_
    · intro a member
      refine quiet a ?_
      rw [split]
      exact List.mem_append_left _ member
    · exact fun actions member => fair actions (List.mem_of_mem_take member)
    · rw [List.length_take]
      omega
  have moves : ∃ a ∈ (rounds.drop 41).flatten, a.thread = some .dispatch := by
    obtain ⟨last, more, rest⟩ : ∃ last more, rounds.drop 41 = last :: more := by
      cases rest : rounds.drop 41 with
      | nil =>
          have none := congrArg List.length rest
          rw [List.length_drop, List.length_nil] at none
          omega
      | cons last more => exact ⟨last, more, rfl⟩
    have member : last ∈ rounds := List.mem_of_mem_drop (rest ▸ List.mem_cons_self)
    obtain ⟨a, inside, thread⟩ := fair last member .dispatch
    exact ⟨a, by rw [rest, List.flatten_cons]; exact List.mem_append_left _ inside, thread⟩
  have faithful := processRun_faithful boot buf msg resp (past ++ first.flatten)
  have grown := pipelineVisits_append boot buf msg resp (past ++ first.flatten)
    (rounds.drop 41).flatten
  rw [← split] at grown
  refine ⟨handled (pipelineVisits boot buf msg resp (past ++ first.flatten)), ?_, early, ?_⟩
  · simp only [visits, grown, handled_append]
    exact List.prefix_append _ _
  · simp only [visits, grown, sent_append, ← faithful.replies]
    exact (List.prefix_append_right_inj _).mpr (pending_sent moves)

end Served

/-- A request in the hands of the receiving thread, and the rounds that serve it. -/
theorem every_request_is_served_testerPresent :
    ∃ inputs, inputs <+: handled (pipelineVisits 0 .zero .zero .zero
        ([.rx .timeout, .rx (.message [0x3E, 0x00] (by decide))] ++
          (List.replicate 42 stillRound).flatten)) ∧
      received (pipelineVisits 0 .zero .zero .zero
        [.rx .timeout, .rx (.message [0x3E, 0x00] (by decide))]) <+: requests inputs ∧
      answers 0 inputs <+: sent (pipelineVisits 0 .zero .zero .zero
        ([.rx .timeout, .rx (.message [0x3E, 0x00] (by decide))] ++
          (List.replicate 42 stillRound).flatten)) := by
  refine every_request_is_served 0 .zero .zero .zero _ (List.replicate 42 stillRound) ?_
    (fun _ member => List.eq_of_mem_replicate member ▸ round_stillRound) (by decide)
  intro a member wakes signalled
  subst signalled
  rcases List.mem_append.mp member with first | later
  · simp at first
  · obtain ⟨actions, inside, member⟩ := List.mem_flatten.mp later
    rw [List.eq_of_mem_replicate inside] at member
    simp [stillRound] at member

end VecuUds
