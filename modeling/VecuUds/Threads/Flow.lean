import VecuUds.Threads.Shutdown

/-!
# Where the messages go

A message in flight is popped and being processed, in the queue, or in the hands of the
receiving thread. The dispatching thread takes messages from the front of this list and
every one it takes is handled. The receiving thread adds what it reads at the end; it
drops the one in its hands when the queue refuses it, and then leaves its loop. So a
process loses at most what is in the queue and one message more. Of the responses it loses at
most the last: the one that is passed on after `main` has closed the socket.
-/

namespace VecuUds

open Foundation

section Steps

variable {s : Pipeline}

/-- What is handled comes off the front of the messages in flight. -/
theorem dispatchStep_inFlight (valid : s.queue.Valid) (amb : Ambient) :
    s.inFlight = requests (handled [visit pipelineStep s (.dispatch amb)]) ++
      (dispatchStep s amb).1.inFlight := by
  have output : (visit pipelineStep s (.dispatch amb)).output = (dispatchStep s amb).2 := rfl
  simp only [handled, List.filterMap_cons, List.filterMap_nil, output]
  unfold dispatchStep
  cases pc : s.dispatch.pc with
  | check =>
      cases s.stop <;> simp [Pipeline.inFlight, DispatchThread.inProcess, pc, requests]
  | pop =>
      have effect := udsQueuePopBlocking_effect valid s.dispatch.msg
      generalize udsQueuePopBlocking s.queue s.dispatch.msg = r at effect ⊢
      obtain ⟨q, r⟩ := r
      cases effect with
      | empty => simp [Pipeline.inFlight, DispatchThread.inProcess, pc, requests]
      | drained => simp [Pipeline.inFlight, DispatchThread.inProcess, pc, requests]
      | popped left closed m inside oldest =>
          simp [Pipeline.inFlight, DispatchThread.inProcess, pc, requests, oldest]
  | process =>
      have leaves : ∀ reply, (s.dispatch.answer reply).pc ≠ .process := by
        intro reply
        simp only [DispatchThread.answer]
        split_ifs <;> simp
      simp [Pipeline.inFlight, DispatchThread.inProcess, pc, requests, leaves]
  | send => simp [Pipeline.inFlight, DispatchThread.inProcess, pc, requests]
  | exited => simp [requests]

/-- What a step of the receiving thread does to the messages in flight. -/
inductive RxFlow (s : Pipeline) (outcome : KioRecv) : Prop where
  /-- Nothing or the message it has read is added at the end. -/
  | kept (extended : (rxStep s outcome).1.inFlight =
        s.inFlight ++ received [visit pipelineStep s (.rx outcome)])
      (reading : received [visit pipelineStep s (.rx outcome)] ≠ [] → s.rx.Looping)
      (looping : (rxStep s outcome).1.rx.Looping → s.rx.Looping)
  /-- The queue has refused the message in its hands. -/
  | refused (pc : s.rx.pc = .push) (leaves : ¬ (rxStep s outcome).1.rx.Looping)
      (dropped : s.inFlight = (rxStep s outcome).1.inFlight ++ s.rx.inHand)
      (silent : received [visit pipelineStep s (.rx outcome)] = [])
      (reason : s.queue.closed = true ∨ s.rx.len = 0)

theorem rxStep_flow (valid : s.queue.Valid) (outcome : KioRecv) : RxFlow s outcome := by
  have output : (visit pipelineStep s (.rx outcome)).output = (rxStep s outcome).2 := rfl
  cases pc : s.rx.pc with
  | check =>
      refine .kept ?_ ?_ ?_
      · cases stop : s.stop <;>
          simp [received, output, rxStep, pc, stop, Pipeline.inFlight, RxThread.inHand]
      · simp [received, output, rxStep, pc]
      · simp [RxThread.Looping, pc]
  | recv =>
      have looping : s.rx.Looping := by simp [RxThread.Looping, pc]
      refine .kept ?_ (fun _ => looping) (fun _ => looping)
      have nothing : s.rx.inHand = [] := by simp [RxThread.inHand, pc]
      cases outcome with
      | message bytes fits =>
          have copied : (s.rx.read bytes fits .push).block.bytes = bytes :=
            take_overwrite_zero s.rx.buf bytes
          by_cases empty : bytes.length = 0
          · simp [received, output, rxStep, pc, empty, Pipeline.inFlight, RxThread.inHand,
              RxThread.read]
          · have hand : (s.rx.read bytes fits .push).inHand = [bytes] := by
              simp only [RxThread.inHand, RxThread.read, if_true]
              exact congrArg (fun b => [b]) copied
            simp [received, output, rxStep, pc, empty, Pipeline.inFlight, nothing, hand]
      | _ => simp [received, output, rxStep, pc, Pipeline.inFlight, RxThread.inHand]
  | push =>
      have looping : s.rx.Looping := by simp [RxThread.Looping, pc]
      have hand : s.rx.inHand = [s.rx.block.bytes] := by simp [RxThread.inHand, pc]
      have effect := udsQueuePush_effect valid s.rx.block
      generalize pushed : udsQueuePush s.queue s.rx.block = r at effect
      obtain ⟨q, r⟩ := r
      have fits : s.rx.block.len ≤ udsMaxMsgLen := s.rx.fits
      cases effect with
      | invalid outside =>
          refine .refused pc ?_ ?_ ?_ (.inr (by simp [RxThread.block] at outside fits ⊢; omega)) <;>
            simp [rxStep, pc, pushed, RxThread.Looping, Pipeline.inFlight, RxThread.inHand,
              received, output]
      | full =>
          have still : rxStep s outcome = (s, none) := by simp only [rxStep, pc, pushed]
          refine .kept ?_ (fun _ => looping) (fun _ => looping)
          simp [received, output, still]
      | closed closed =>
          refine .refused pc ?_ ?_ ?_ (.inl closed) <;>
            simp [rxStep, pc, pushed, RxThread.Looping, Pipeline.inFlight, RxThread.inHand,
              received, output]
      | pushed isOpen room inside stored stillOpen appended =>
          refine .kept ?_ (fun _ => looping) (fun _ => looping)
          rw [Pipeline.inFlight, Pipeline.inFlight, hand]
          simp [rxStep, pc, pushed, RxThread.inHand, received, output, appended]
  | shutdown =>
      refine .kept ?_ ?_ ?_
      · simp [received, output, rxStep, pc, Pipeline.inFlight, RxThread.inHand, udsQueueShutdown,
          UdsQueue.messages]
      · simp [received, output, rxStep, pc]
      · simp [rxStep, pc, RxThread.Looping]
  | exited =>
      refine .kept ?_ ?_ ?_
      · simp [received, output, rxStep, pc]
      · simp [received, output, rxStep, pc]
      · simp [rxStep, pc, RxThread.Looping]

end Steps

/-- The receiving thread shows the messages it reads. -/
theorem rxStep_event (s : Pipeline) (outcome : KioRecv) :
    (rxStep s outcome).2 = none ∨ ∃ bytes, (rxStep s outcome).2 = some (.received bytes) := by
  unfold rxStep
  cases s.rx.pc with
  | recv =>
      cases outcome with
      | message bytes fits =>
          dsimp only
          split_ifs
          · exact .inl rfl
          · exact .inr ⟨bytes, rfl⟩
      | _ => exact .inl rfl
  | push =>
      dsimp only
      cases (udsQueuePush s.queue s.rx.block).2 <;> exact .inl rfl
  | _ => exact .inl rfl

/-- The dispatching thread shows the requests it handles and the responses it sends. -/
theorem dispatchStep_event (s : Pipeline) (amb : Ambient) :
    (dispatchStep s amb).2 = none ∨
      (∃ req, (dispatchStep s amb).2 = some (.handled ⟨.request req, amb⟩)) ∨
      ∃ bytes, (dispatchStep s amb).2 = some (.sent bytes) := by
  unfold dispatchStep
  cases s.dispatch.pc with
  | pop =>
      dsimp only
      cases (udsQueuePopBlocking s.queue s.dispatch.msg).2 <;> exact .inl rfl
  | process => exact .inr (.inl ⟨_, rfl⟩)
  | send => exact .inr (.inr ⟨_, rfl⟩)
  | _ => exact .inl rfl

/-- The receiving thread handles no request. -/
theorem requests_rx (s : Pipeline) (outcome : KioRecv) :
    requests (handled [visit pipelineStep s (.rx outcome)]) = [] := by
  have output : (visit pipelineStep s (.rx outcome)).output = (rxStep s outcome).2 := rfl
  rcases rxStep_event s outcome with silent | ⟨bytes, event⟩
  · simp [handled, requests, output, silent]
  · simp [handled, requests, output, event]

/-- The dispatching thread reads no message. -/
theorem received_dispatch (s : Pipeline) (amb : Ambient) :
    received [visit pipelineStep s (.dispatch amb)] = [] := by
  have output : (visit pipelineStep s (.dispatch amb)).output = (dispatchStep s amb).2 := rfl
  rcases dispatchStep_event s amb with silent | ⟨i, event⟩ | ⟨bytes, event⟩
  · simp [received, output, silent]
  · simp [received, output, event]
  · simp [received, output, event]

/-! ## Accounting for a run -/

theorem received_append (first second : List PipelineVisit) :
    received (first ++ second) = received first ++ received second := List.filterMap_append

theorem handled_append (first second : List PipelineVisit) :
    handled (first ++ second) = handled first ++ handled second := List.filterMap_append

theorem sent_append (first second : List PipelineVisit) :
    sent (first ++ second) = sent first ++ sent second := List.filterMap_append

theorem requests_append (first second : List ServerInput) :
    requests (first ++ second) = requests first ++ requests second := List.filterMap_append

/-- Every received message is handled, in flight, or the one that the queue refused. -/
def Conserved (past : List PipelineVisit) (s : Pipeline) : Prop :=
  ∃ lost : List (List UInt8), lost.length ≤ 1 ∧ (s.rx.Looping → lost = []) ∧
    received past = requests (handled past) ++ s.inFlight ++ lost

section Accounting

variable {past : List PipelineVisit} {s : Pipeline}

/-- A step that moves no message and shows none. -/
theorem Conserved.still (conserved : Conserved past s) {s' : Pipeline} {v : PipelineVisit}
    (looping : s'.rx.Looping → s.rx.Looping) (same : s'.inFlight = s.inFlight)
    (nothing : received [v] = [] ∧ requests (handled [v]) = []) : Conserved (past ++ [v]) s' := by
  obtain ⟨lost, few, none, whole⟩ := conserved
  refine ⟨lost, few, fun after => none (looping after), ?_⟩
  rw [received_append, handled_append, requests_append, nothing.1, nothing.2, same, whole,
    List.append_nil, List.append_nil]

theorem Conserved.rx (conserved : Conserved past s) (valid : s.queue.Valid) (outcome : KioRecv) :
    Conserved (past ++ [visit pipelineStep s (.rx outcome)]) (rxStep s outcome).1 := by
  obtain ⟨lost, few, none, whole⟩ := conserved
  rw [Conserved, received_append, handled_append, requests_append, requests_rx, List.append_nil]
  cases rxStep_flow valid outcome with
  | kept extended reading looping =>
      refine ⟨lost, few, fun after => none (looping after), ?_⟩
      rw [extended, whole]
      by_cases read : received [visit pipelineStep s (.rx outcome)] = []
      · rw [read, List.append_nil, List.append_nil]
      · rw [none (reading read)]
        simp only [List.append_nil, List.append_assoc]
  | refused pc leaves dropped silent reason =>
      have nothing : lost = [] := none (by simp [RxThread.Looping, pc])
      refine ⟨s.rx.inHand, by simp [RxThread.inHand, pc], fun after => absurd after leaves, ?_⟩
      rw [silent, List.append_nil, whole, nothing, dropped, List.append_nil, List.append_assoc]

theorem Conserved.dispatch (conserved : Conserved past s) (valid : s.queue.Valid)
    (amb : Ambient) :
    Conserved (past ++ [visit pipelineStep s (.dispatch amb)]) (dispatchStep s amb).1 := by
  obtain ⟨lost, few, none, whole⟩ := conserved
  have sameRx : (dispatchStep s amb).1.rx = s.rx := by
    have statement := dispatchStep_statement s amb
    generalize (dispatchStep s amb).1 = s' at statement
    cases statement <;> rfl
  refine ⟨lost, few, fun after => none (by rw [← sameRx]; exact after), ?_⟩
  rw [received_append, handled_append, requests_append, received_dispatch, List.append_nil, whole,
    dispatchStep_inFlight valid amb]
  simp only [List.append_assoc]

theorem Conserved.step (conserved : Conserved past s) (valid : s.queue.Valid)
    (action : PipelineAction) :
    Conserved (past ++ [visit pipelineStep s action]) (pipelineStep s action).1 := by
  cases action with
  | signal => exact conserved.still id rfl ⟨rfl, rfl⟩
  | mainShutdown => exact conserved.still id rfl ⟨rfl, rfl⟩
  | rx outcome => exact conserved.rx valid outcome
  | dispatch amb => exact conserved.dispatch valid amb
  | s3 amb => exact conserved.still id rfl ⟨rfl, rfl⟩
  | tick amb => exact conserved.still id rfl ⟨rfl, rfl⟩

end Accounting

theorem Conserved.start (boot : UInt64) (buf msg resp : UdsMsg) :
    Conserved [] (.start boot buf msg resp) := by
  refine ⟨[], by simp, fun _ => rfl, ?_⟩
  simp [Pipeline.inFlight, Pipeline.start, DispatchThread.inProcess, RxThread.inHand, handled,
    requests, received, UdsQueue.messages_eq_nil.mpr (rfl : udsQueueInit.count = 0)]

/-- How many responses the dispatching thread may still pass on, once the stop flag is set. -/
def DispatchPc.sends : DispatchPc → Nat
  | .pop => 1
  | .process => 1
  | .send => 1
  | _ => 0

theorem DispatchPc.sends_le (pc : DispatchPc) : pc.sends ≤ 1 := by
  cases pc <;> decide

/-- With the stop flag set, a response that is passed on is the last one. -/
theorem dispatchStep_sends {s : Pipeline} (stop : s.stop = true) (amb : Ambient) :
    (sent [visit pipelineStep s (.dispatch amb)]).length +
        (dispatchStep s amb).1.dispatch.pc.sends ≤ s.dispatch.pc.sends := by
  have output : (visit pipelineStep s (.dispatch amb)).output = (dispatchStep s amb).2 := rfl
  simp only [sent, List.filterMap_cons, List.filterMap_nil, output]
  unfold dispatchStep
  cases pc : s.dispatch.pc with
  | check => simp [stop, DispatchPc.sends]
  | pop =>
      dsimp only
      generalize udsQueuePopBlocking s.queue s.dispatch.msg = r
      obtain ⟨q, r⟩ := r
      cases r with
      | wait => simp [pc]
      | done rc out =>
          dsimp only
          split_ifs <;> simp [DispatchPc.sends]
  | process =>
      dsimp only
      rw [List.length_nil, Nat.zero_add]
      exact DispatchPc.sends_le _
  | send => simp [DispatchPc.sends]
  | exited => simp [pc]

section Written

variable {p : Process}

/-- The pipeline shows what the dispatching thread passes on. -/
theorem sent_action (p : Process) (a : ProcessAction) :
    sent (trace pipelineStep p.pipe (p.action a).toList) = (p.passes a).toList := by
  cases a with
  | signal wakes => rfl
  | main =>
      simp only [Process.action]
      split_ifs <;> rfl
  | rx outcome =>
      have output : (visit pipelineStep p.pipe (.rx outcome)).output =
          (rxStep p.pipe outcome).2 := rfl
      change sent [visit pipelineStep p.pipe (.rx outcome)] = []
      rcases rxStep_event p.pipe outcome with silent | ⟨bytes, event⟩
      · simp [sent, output, silent]
      · simp [sent, output, event]
  | dispatch amb =>
      have output : (visit pipelineStep p.pipe (.dispatch amb)).output =
          (dispatchStep p.pipe amb).2 := rfl
      change sent [visit pipelineStep p.pipe (.dispatch amb)] = _
      simp only [sent, List.filterMap_cons, List.filterMap_nil, output, Process.passes]
      unfold dispatchStep
      cases pc : p.pipe.dispatch.pc with
      | pop =>
          dsimp only
          cases (udsQueuePopBlocking p.pipe.queue p.pipe.dispatch.msg).2 <;> rfl
      | _ => rfl
  | app amb =>
      simp only [Process.action]
      split_ifs <;> rfl
  | s3 amb =>
      simp only [Process.action]
      split_ifs <;> rfl

/-- `main` closes the socket only after it has seen the stop flag. -/
structure Closing (p : Process) : Prop where
  decided : p.main.Past .check → p.pipe.stop = true
  closed : p.socketOpen = false → p.pipe.stop = true

theorem Closing.main (closing : Closing p) : Closing p.mainStep := by
  obtain ⟨decided, closed⟩ := closing
  unfold Process.mainStep
  cases pc : p.main with
  | check =>
      refine ⟨?_, closed⟩
      dsimp only
      split_ifs with stop
      · exact fun _ => stop
      · exact fun past => absurd past (Nat.lt_irrefl 9)
  | pause => exact ⟨decided, closed⟩
  | returned => exact ⟨decided, closed⟩
  | joinRx | joinDispatch | joinApp | joinS3 =>
      have stop := decided (by simp [pc, MainPc.Past, MainPc.work])
      dsimp only
      split_ifs <;> exact ⟨fun _ => stop, fun _ => stop⟩
  | _ =>
      have stop := decided (by simp [pc, MainPc.Past, MainPc.work])
      exact ⟨fun _ => stop, fun _ => stop⟩

/-- The other threads leave `main` and the socket alone. -/
theorem Closing.other (closing : Closing p) {p' : Process} (main : p'.main = p.main)
    (socket : p'.socketOpen = p.socketOpen) (stop : p.pipe.stop = true → p'.pipe.stop = true) :
    Closing p' :=
  ⟨fun past => stop (closing.decided (main ▸ past)),
    fun closed => stop (closing.closed (socket ▸ closed))⟩

theorem Closing.step (closing : Closing p) (a : ProcessAction) : Closing (processStep p a).1 := by
  have stop := fun set : p.pipe.stop = true => processStep_stop set a
  cases a with
  | signal wakes => exact ⟨fun _ => rfl, fun _ => rfl⟩
  | main => exact closing.main
  | rx outcome => exact closing.other rfl rfl stop
  | dispatch amb => exact closing.other rfl rfl stop
  | app amb =>
      obtain ⟨ecu, -, same⟩ := p.appStep_eq amb
      simp only [processStep, same] at stop ⊢
      exact closing.other rfl rfl stop
  | s3 amb =>
      obtain ⟨ecu, -, same⟩ := p.s3Step_eq amb
      simp only [processStep, same] at stop ⊢
      exact closing.other rfl rfl stop

/-- Nothing opens the socket again. -/
theorem processStep_closed (closed : p.socketOpen = false) (a : ProcessAction) :
    (processStep p a).1.socketOpen = false := by
  cases a with
  | main =>
      simp only [processStep, Process.mainStep]
      cases p.main with
      | joinRx | joinDispatch | joinApp | joinS3 =>
          dsimp only
          split_ifs <;> exact closed
      | close => rfl
      | _ => exact closed
  | app amb =>
      obtain ⟨ecu, -, same⟩ := p.appStep_eq amb
      simpa only [processStep, same] using closed
  | s3 amb =>
      obtain ⟨ecu, -, same⟩ := p.s3Step_eq amb
      simpa only [processStep, same] using closed
  | _ => exact closed

/-- With the stop flag set, a response that is passed on is the last one. -/
theorem passes_sends (stop : p.pipe.stop = true) (a : ProcessAction) :
    (p.passes a).toList.length + (processStep p a).1.pipe.dispatch.pc.sends ≤
      p.pipe.dispatch.pc.sends := by
  have idle : (processStep p a).1.pipe.dispatch = p.pipe.dispatch → p.passes a = none →
      (p.passes a).toList.length + (processStep p a).1.pipe.dispatch.pc.sends ≤
        p.pipe.dispatch.pc.sends := by
    intro same silent
    rw [same, silent]
    exact Nat.le_of_eq (Nat.zero_add _)
  cases a with
  | dispatch amb =>
      rw [← sent_action]
      exact dispatchStep_sends stop amb
  | signal wakes => exact idle rfl rfl
  | main => exact idle p.mainStep_frame.dispatch rfl
  | rx outcome =>
      refine idle ?_ rfl
      have statement := rxStep_statement p.pipe outcome
      change (rxStep p.pipe outcome).1.dispatch = p.pipe.dispatch
      generalize (rxStep p.pipe outcome).1 = s at statement ⊢
      cases statement <;> rfl
  | app amb =>
      obtain ⟨ecu, -, same⟩ := p.appStep_eq amb
      exact idle (by simp only [processStep, same]) rfl
  | s3 amb =>
      obtain ⟨ecu, -, same⟩ := p.s3Step_eq amb
      exact idle (by simp only [processStep, same]) rfl

/-- What was passed on while the socket was open was written; once it is closed, at most one
response more is passed on. -/
structure Delivered (passed written : List (List UInt8)) (p : Process) : Prop where
  closing : Closing p
  whole : ∃ unsent, passed = written ++ unsent ∧ (p.socketOpen = true → unsent = []) ∧
    unsent.length + p.pipe.dispatch.pc.sends ≤ 1

theorem Delivered.step {passed written : List (List UInt8)}
    (delivered : Delivered passed written p) (a : ProcessAction) :
    Delivered (passed ++ (p.passes a).toList) (written ++ (p.writes a).toList)
      (processStep p a).1 := by
  obtain ⟨closing, unsent, rfl, none, few⟩ := delivered
  refine ⟨closing.step a, ?_⟩
  cases socket : p.socketOpen with
  | true =>
      refine ⟨[], ?_, fun _ => rfl, ?_⟩
      · rw [none socket, Process.writes, if_pos socket, List.append_nil, List.append_nil]
      · rw [List.length_nil, Nat.zero_add]
        exact DispatchPc.sends_le _
  | false =>
      have silent : p.writes a = Option.none := by simp [Process.writes, socket]
      have fewer := passes_sends (closing.closed socket) a
      refine ⟨unsent ++ (p.passes a).toList, ?_, ?_, ?_⟩
      · rw [silent, Option.toList_none, List.append_nil, List.append_assoc]
      · intro isOpen
        rw [processStep_closed socket a] at isOpen
        cases isOpen
      · rw [List.length_append]
        omega

end Written

/-- A TesterPresent request that is handled when `main` closes the socket: its response is
passed on and not written. -/
example :
    let late : List ProcessAction :=
      [.rx .timeout, .rx (.message [0x3E, 0x00] (by decide)), .rx .timeout,
        .dispatch (.still 0), .dispatch (.still 0), .dispatch (.still 0), .signal false, .main,
        .main, .main, .dispatch (.still 0)]
    sent (pipelineVisits 0 .zero .zero .zero late) = [[0x7E, 0x00]] ∧
      written 0 .zero .zero .zero late = [] := by
  decide +kernel

/-! ## After the flag -/

/-- The steps on the ECU that are no requests. -/
def background (inputs : List ServerInput) (op : ServerOp) : List ServerInput :=
  inputs.filter fun i => i.op = op

/-- What a thread may still do once the stop flag is set: read a message, handle a request, tick
the engine and check the session. Each thread tests the flag before it does so again. -/
structure Allowance where
  reads : Nat
  requests : Nat
  ticks : Nat
  checks : Nat

def RxPc.reads : RxPc → Nat
  | .recv => 1
  | _ => 0

def DispatchPc.requests : DispatchPc → Nat
  | .pop => 1
  | .process => 1
  | _ => 0

def WorkerPc.steps : WorkerPc → Nat
  | .work => 1
  | _ => 0

def Process.allowance (p : Process) : Allowance where
  reads := p.pipe.rx.pc.reads
  requests := p.pipe.dispatch.pc.requests
  ticks := p.app.steps
  checks := p.s3.steps

/-- The visits keep within an allowance, of which a second one is left. -/
structure Within (visits : List PipelineVisit) (before after : Allowance) : Prop where
  reads : (received visits).length + after.reads ≤ before.reads
  requests : (requests (handled visits)).length + after.requests ≤ before.requests
  ticks : (background (handled visits) .engineTick).length + after.ticks ≤ before.ticks
  checks : (background (handled visits) .s3Iteration).length + after.checks ≤ before.checks

section Allowances

variable {p : Process}

theorem Within.append {first second : List PipelineVisit} {a b c : Allowance}
    (now : Within first a b) (later : Within second b c) : Within (first ++ second) a c := by
  obtain ⟨reads, requests, ticks, checks⟩ := now
  obtain ⟨reads', requests', ticks', checks'⟩ := later
  constructor
  · rw [received_append, List.length_append]
    omega
  · rw [handled_append, requests_append, List.length_append]
    omega
  · rw [handled_append, background, List.filter_append, List.length_append]
    exact Nat.le_trans (by simp only [background] at *; omega) ticks
  · rw [handled_append, background, List.filter_append, List.length_append]
    exact Nat.le_trans (by simp only [background] at *; omega) checks

/-- Visits without an event, by a thread that has no more to do than before. -/
theorem Within.silent {visits : List PipelineVisit} (silent : ∀ v ∈ visits, v.output = none)
    {before after : Allowance} (reads : after.reads ≤ before.reads)
    (requests : after.requests ≤ before.requests) (ticks : after.ticks ≤ before.ticks)
    (checks : after.checks ≤ before.checks) : Within visits before after := by
  obtain ⟨noRead, noHandled, -⟩ := events_append_silent [] silent
  rw [List.nil_append] at noRead noHandled
  have unread : received visits = [] := noRead
  have unhandled : handled visits = [] := noHandled
  constructor
  · simpa [unread] using reads
  · simpa [unhandled, VecuUds.requests] using requests
  · simpa [unhandled, background] using ticks
  · simpa [unhandled, background] using checks

/-- Visits without an event, by a thread that has as much to do as before. -/
theorem Within.still {visits : List PipelineVisit} (silent : ∀ v ∈ visits, v.output = none)
    {before after : Allowance} (same : after = before) : Within visits before after := by
  rw [same]
  exact .silent silent (Nat.le_refl _) (Nat.le_refl _) (Nat.le_refl _) (Nat.le_refl _)

/-- A worker that is not at its work does not come to it with the stop flag set. -/
theorem WorkerPc.steps_next {pc : WorkerPc} (idle : pc ≠ .work) :
    (pc.next true).steps ≤ pc.steps := by
  cases pc with
  | work => exact absurd rfl idle
  | _ => exact Nat.le_refl 0

theorem within_rx (stop : p.pipe.stop = true) (outcome : KioRecv) :
    Within [visit pipelineStep p.pipe (.rx outcome)] p.allowance
      (processStep p (.rx outcome)).1.allowance := by
  have output : (visit pipelineStep p.pipe (.rx outcome)).output = (rxStep p.pipe outcome).2 := rfl
  have dispatch : (rxStep p.pipe outcome).1.dispatch = p.pipe.dispatch := by
    have statement := rxStep_statement p.pipe outcome
    generalize (rxStep p.pipe outcome).1 = s at statement ⊢
    cases statement <;> rfl
  have unhandled : handled [visit pipelineStep p.pipe (.rx outcome)] = [] := by
    rcases rxStep_event p.pipe outcome with silent | ⟨bytes, event⟩
    · simp [handled, output, silent]
    · simp [handled, output, event]
  constructor
  · change (received _).length + (rxStep p.pipe outcome).1.rx.pc.reads ≤ p.pipe.rx.pc.reads
    simp only [received, List.filterMap_cons, List.filterMap_nil, output]
    unfold rxStep
    cases pc : p.pipe.rx.pc with
    | check => simp [stop, RxPc.reads]
    | recv =>
        cases outcome with
        | message bytes fits =>
            by_cases empty : bytes.length = 0
            · simp [empty, RxThread.read, RxPc.reads]
            · simp [empty, RxThread.read, RxPc.reads]
        | _ => simp [RxPc.reads]
    | push =>
        dsimp only
        generalize udsQueuePush p.pipe.queue p.pipe.rx.block = r
        obtain ⟨q, r⟩ := r
        cases r with
        | wait => simp [pc]
        | done rc out =>
            by_cases zero : rc = 0
            · simp [zero, RxPc.reads]
            · simp [zero, RxPc.reads]
    | shutdown => simp [RxPc.reads]
    | exited => simp [pc]
  · rw [unhandled]
    change 0 + (rxStep p.pipe outcome).1.dispatch.pc.requests ≤ _
    rw [dispatch, Nat.zero_add]
    exact Nat.le_refl _
  · rw [unhandled]
    exact Nat.le_of_eq (Nat.zero_add _)
  · rw [unhandled]
    exact Nat.le_of_eq (Nat.zero_add _)

theorem within_dispatch (stop : p.pipe.stop = true) (amb : Ambient) :
    Within [visit pipelineStep p.pipe (.dispatch amb)] p.allowance
      (processStep p (.dispatch amb)).1.allowance := by
  have output : (visit pipelineStep p.pipe (.dispatch amb)).output =
      (dispatchStep p.pipe amb).2 := rfl
  have rx : (dispatchStep p.pipe amb).1.rx = p.pipe.rx := by
    have statement := dispatchStep_statement p.pipe amb
    generalize (dispatchStep p.pipe amb).1 = s at statement ⊢
    cases statement <;> rfl
  have noBackground : ∀ op : ServerOp, (∀ req, op ≠ .request req) →
      background (handled [visit pipelineStep p.pipe (.dispatch amb)]) op = [] := by
    intro op other
    rcases dispatchStep_event p.pipe amb with silent | ⟨req, event⟩ | ⟨bytes, event⟩
    · simp [background, handled, output, silent]
    · simp [background, handled, output, event, (other req).symm]
    · simp [background, handled, output, event]
  constructor
  · rw [received_dispatch]
    change 0 + (dispatchStep p.pipe amb).1.rx.pc.reads ≤ _
    rw [rx, Nat.zero_add]
    exact Nat.le_refl _
  · change (requests (handled _)).length + (dispatchStep p.pipe amb).1.dispatch.pc.requests ≤
      p.pipe.dispatch.pc.requests
    simp only [handled, List.filterMap_cons, List.filterMap_nil, output]
    unfold dispatchStep
    cases pc : p.pipe.dispatch.pc with
    | check => simp [stop, requests, DispatchPc.requests]
    | pop =>
        dsimp only
        generalize udsQueuePopBlocking p.pipe.queue p.pipe.dispatch.msg = r
        obtain ⟨q, r⟩ := r
        cases r with
        | wait => simp [pc, requests]
        | done rc out =>
            by_cases zero : rc = 0
            · simp [zero, requests, DispatchPc.requests]
            · simp [zero, requests, DispatchPc.requests]
    | process =>
        simp only [DispatchThread.answer]
        split_ifs <;> simp [requests, DispatchPc.requests]
    | send => simp [requests, DispatchPc.requests]
    | exited => simp [pc, requests]
  · rw [noBackground .engineTick (by simp)]
    exact Nat.le_of_eq (Nat.zero_add _)
  · rw [noBackground .s3Iteration (by simp)]
    exact Nat.le_of_eq (Nat.zero_add _)

/-- A step of the application or the S3 thread on the ECU. -/
theorem within_background {i : ServerInput} {after : Allowance} {action : PipelineAction}
    (event : (visit pipelineStep p.pipe action).output = some (.handled i))
    (request : ∀ req, i.op ≠ .request req) (reads : after.reads ≤ p.allowance.reads)
    (requests : after.requests ≤ p.allowance.requests)
    (ticks : (background [i] .engineTick).length + after.ticks ≤ p.allowance.ticks)
    (checks : (background [i] .s3Iteration).length + after.checks ≤ p.allowance.checks) :
    Within [visit pipelineStep p.pipe action] p.allowance after := by
  have shown : handled [visit pipelineStep p.pipe action] = [i] := by simp [handled, event]
  constructor
  · simpa [received, event] using reads
  · rw [shown]
    cases op : i.op with
    | request req => exact absurd op (request req)
    | _ => simpa [VecuUds.requests, op] using requests
  · rw [shown]
    exact ticks
  · rw [shown]
    exact checks

theorem within_step (stop : p.pipe.stop = true) (a : ProcessAction) :
    Within (trace pipelineStep p.pipe (p.action a).toList) p.allowance
      (processStep p a).1.allowance := by
  cases a with
  | signal wakes =>
      exact .still (by simp [Process.action, visit, pipelineStep]) rfl
  | main =>
      have frame := p.mainStep_frame
      have same : p.mainStep.allowance = p.allowance := by
        simp only [Process.allowance, frame.rx, frame.dispatch, frame.app, frame.s3]
      refine .still ?_ same
      simp only [Process.action]
      split_ifs <;> simp [visit, pipelineStep]
  | rx outcome => exact within_rx stop outcome
  | dispatch amb => exact within_dispatch stop amb
  | app amb =>
      obtain ⟨ecu, -, same⟩ := p.appStep_eq amb
      simp only [processStep, same, Process.action]
      split_ifs with working
      · refine within_background (i := ⟨.engineTick, amb⟩) rfl (by simp) (Nat.le_refl _)
          (Nat.le_refl _) ?_ ?_
        · simp [background, Process.allowance, working, WorkerPc.next, WorkerPc.steps]
        · simp [background, Process.allowance]
      · rw [stop]
        exact .silent (by simp) (Nat.le_refl _) (Nat.le_refl _) (WorkerPc.steps_next working)
          (Nat.le_refl _)
  | s3 amb =>
      obtain ⟨ecu, -, same⟩ := p.s3Step_eq amb
      simp only [processStep, same, Process.action]
      split_ifs with working
      · refine within_background (i := ⟨.s3Iteration, amb⟩) rfl (by simp) (Nat.le_refl _)
          (Nat.le_refl _) ?_ ?_
        · simp [background, Process.allowance]
        · simp [background, Process.allowance, working, WorkerPc.next, WorkerPc.steps]
      · rw [stop]
        exact .silent (by simp) (Nat.le_refl _) (Nat.le_refl _) (Nat.le_refl _)
          (WorkerPc.steps_next working)

theorem within_run (stop : p.pipe.stop = true) (future : List ProcessAction) :
    Within (trace pipelineStep p.pipe (p.actions future)) p.allowance
      (run processStep p future).allowance := by
  induction future generalizing p with
  | nil => exact .still (fun v member => absurd member List.not_mem_nil) rfl
  | cons a rest ih =>
      rw [run_cons, Process.actions_cons, trace_append, ← processStep_pipe]
      exact (within_step stop a).append (ih (processStep_stop stop a))

end Allowances

/-- **The stop flag is obeyed at once.** In whatever state the flag finds the process, and
however it is scheduled afterwards, at most one more message is read, one more request
handled, one more engine tick made and one more S3 iteration run. -/
theorem stop_is_obeyed (boot : UInt64) (buf msg resp : UdsMsg) (past future : List ProcessAction)
    (stop : (processRun boot buf msg resp past).pipe.stop = true) :
    ∃ visits, pipelineVisits boot buf msg resp (past ++ future) =
        pipelineVisits boot buf msg resp past ++ visits ∧
      (received visits).length ≤ 1 ∧ (requests (handled visits)).length ≤ 1 ∧
      (background (handled visits) .engineTick).length ≤ 1 ∧
      (background (handled visits) .s3Iteration).length ≤ 1 := by
  refine ⟨_, pipelineVisits_append boot buf msg resp past future, ?_⟩
  generalize processRun boot buf msg resp past = p at stop ⊢
  obtain ⟨reads, requests, ticks, checks⟩ := within_run stop future
  have one : p.allowance.reads ≤ 1 ∧ p.allowance.requests ≤ 1 ∧ p.allowance.ticks ≤ 1 ∧
      p.allowance.checks ≤ 1 := by
    simp only [Process.allowance]
    refine ⟨?_, ?_, ?_, ?_⟩
    · cases p.pipe.rx.pc <;> decide
    · cases p.pipe.dispatch.pc <;> decide
    · cases p.app <;> decide
    · cases p.s3 <;> decide
  exact ⟨by omega, by omega, by omega, by omega⟩

/-- A signal that finds the four threads in the middle of their loops. -/
def busyStop : List ProcessAction :=
  [.rx .timeout, .dispatch (.still 0), .app (.still 0), .s3 (.still 0), .signal false]

theorem stop_is_obeyed_when_busy :
    ∃ visits, pipelineVisits 0 .zero .zero .zero (busyStop ++ stillRound) =
        pipelineVisits 0 .zero .zero .zero busyStop ++ visits ∧
      (received visits).length ≤ 1 ∧ (requests (handled visits)).length ≤ 1 ∧
      (background (handled visits) .engineTick).length ≤ 1 ∧
      (background (handled visits) .s3Iteration).length ≤ 1 :=
  stop_is_obeyed 0 .zero .zero .zero busyStop stillRound rfl

end VecuUds
