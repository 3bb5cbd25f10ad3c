import VecuUds.Threads.Pipeline

/-!
# The pipeline is a sequential server

`Faithful` relates the recorded past of a schedule to its present state. A message that
the kernel delivered is handled, being processed, in the queue or in the hands of the
receiving thread, in this order; the ECU is where the sequential server would be after
the handled inputs; and what was sent, with the response about to be sent, is what that
server answers. Each thread's step carries the relation over, and a schedule is an
induction over its steps.
-/

namespace VecuUds

open Foundation

/-! ## Where a message is -/

/-- The message popped but not yet processed. -/
def DispatchThread.inProcess (d : DispatchThread) : List (List UInt8) :=
  if d.pc = .process then [d.msg.bytes] else []

/-- The response computed but not yet sent. -/
def DispatchThread.pending (d : DispatchThread) : List (List UInt8) :=
  if d.pc = .send then [d.resp.take d.respLen] else []

/-- The message received but not yet pushed. -/
def RxThread.inHand (rx : RxThread) : List (List UInt8) :=
  if rx.pc = .push then [rx.block.bytes] else []

/-- The receiving thread has not left its loop. -/
def RxThread.Looping (rx : RxThread) : Prop := rx.pc ≠ .shutdown ∧ rx.pc ≠ .exited

def Pipeline.inFlight (s : Pipeline) : List (List UInt8) :=
  s.dispatch.inProcess ++ s.queue.messages ++ s.rx.inHand

/-- What the past of a schedule says about its present state. -/
structure Faithful (boot : UInt64) (past : List PipelineVisit) (s : Pipeline) : Prop where
  queue : s.queue.Valid
  ecu : s.ecu = serverRun boot (handled past)
  message : s.dispatch.pc = .process → 1 ≤ s.dispatch.msg.len ∧ s.dispatch.msg.len ≤ udsMaxMsgLen
  order : requests (handled past) ++ s.inFlight <+: received past
  whole : s.rx.Looping → requests (handled past) ++ s.inFlight = received past
  replies : sent past ++ s.dispatch.pending = answers boot (handled past)

section Events

variable (past : List PipelineVisit) {v : PipelineVisit}

private theorem events_silent (silent : v.output = none) :
    received (past ++ [v]) = received past ∧ handled (past ++ [v]) = handled past ∧
      sent (past ++ [v]) = sent past := by
  simp [received, handled, sent, silent]

private theorem events_received {bytes : List UInt8} (event : v.output = some (.received bytes)) :
    received (past ++ [v]) = received past ++ [bytes] ∧ handled (past ++ [v]) = handled past ∧
      sent (past ++ [v]) = sent past := by
  simp [received, handled, sent, event]

private theorem events_handled {i : ServerInput} (event : v.output = some (.handled i)) :
    received (past ++ [v]) = received past ∧ handled (past ++ [v]) = handled past ++ [i] ∧
      sent (past ++ [v]) = sent past := by
  simp [received, handled, sent, event]

private theorem events_sent {bytes : List UInt8} (event : v.output = some (.sent bytes)) :
    received (past ++ [v]) = received past ∧ handled (past ++ [v]) = handled past ∧
      sent (past ++ [v]) = sent past ++ [bytes] := by
  simp [received, handled, sent, event]

end Events

theorem answers_snoc (boot : UInt64) (inputs : List ServerInput) (i : ServerInput) :
    answers boot (inputs ++ [i]) =
      answers boot inputs ++ (answer (visit serverStep (serverRun boot inputs) i)).toList := by
  rw [answers, serverTrace, trace_snoc, List.filterMap_append]
  cases h : answer (visit serverStep (serverRun boot inputs) i) with
  | none => simp only [List.filterMap_cons, serverRun] at h ⊢; simp [h, answers, serverTrace]
  | some bytes => simp only [List.filterMap_cons, serverRun] at h ⊢; simp [h, answers, serverTrace]

/-! ## Steps -/

section Steps

variable {boot : UInt64} {past : List PipelineVisit} {s s' : Pipeline}

/-- A step without an event that moves messages at most out of the hands of a receiving
thread that leaves its loop. -/
theorem Faithful.silent (faithful : Faithful boot past s) {v : PipelineVisit}
    (silent : v.output = none) (queue : s'.queue.Valid) (ecu : s'.ecu = s.ecu)
    (message : s'.dispatch.pc = .process →
      1 ≤ s'.dispatch.msg.len ∧ s'.dispatch.msg.len ≤ udsMaxMsgLen)
    (kept : s'.inFlight <+: s.inFlight)
    (whole : s'.rx.Looping → s.rx.Looping ∧ s'.inFlight = s.inFlight)
    (pending : s'.dispatch.pending = s.dispatch.pending) : Faithful boot (past ++ [v]) s' := by
  obtain ⟨sameReceived, sameHandled, sameSent⟩ := events_silent past silent
  constructor
  · exact queue
  · rw [ecu, sameHandled]
    exact faithful.ecu
  · exact message
  · rw [sameReceived, sameHandled]
    exact (List.prefix_append_right_inj _ |>.mpr kept).trans faithful.order
  · intro looping
    obtain ⟨before, same⟩ := whole looping
    rw [sameReceived, sameHandled, same]
    exact faithful.whole before
  · rw [sameSent, sameHandled, pending]
    exact faithful.replies

/-- A step that moves no message: the queue may be closed and the receiving thread may
go on to another statement. -/
theorem Faithful.rxMove (faithful : Faithful boot past s) {v : PipelineVisit}
    (silent : v.output = none) {q : UdsQueue} (valid : q.Valid)
    (messages : q.messages = s.queue.messages) {rx : RxThread} (hand : rx.inHand = s.rx.inHand)
    (looping : rx.Looping → s.rx.Looping) :
    Faithful boot (past ++ [v]) { s with queue := q, rx := rx } := by
  have same : Pipeline.inFlight { s with queue := q, rx := rx } = s.inFlight := by
    simp only [Pipeline.inFlight, hand, messages]
  refine faithful.silent silent valid rfl faithful.message ?_ ?_ rfl
  · exact same ▸ List.prefix_refl _
  · intro after
    exact ⟨looping after, same⟩

/-- A read delivers a message into the hands of the receiving thread. -/
theorem Faithful.read (faithful : Faithful boot past s) {v : PipelineVisit} {bytes : List UInt8}
    (event : v.output = some (.received bytes)) (pc : s.rx.pc = .recv)
    (fits : bytes.length ≤ udsMaxMsgLen) :
    Faithful boot (past ++ [v]) { s with rx := s.rx.read bytes fits .push } := by
  obtain ⟨newReceived, sameHandled, sameSent⟩ := events_received past event
  have looping : s.rx.Looping := by simp [RxThread.Looping, pc]
  have copied : (s.rx.read bytes fits .push).block.bytes = bytes :=
    take_overwrite_zero s.rx.buf bytes
  have extended : Pipeline.inFlight { s with rx := s.rx.read bytes fits .push } =
      s.inFlight ++ [bytes] := by
    have before : s.rx.inHand = [] := by simp [RxThread.inHand, pc]
    have after : (s.rx.read bytes fits .push).inHand = [bytes] := by
      simp only [RxThread.inHand, RxThread.read, if_true]
      exact congrArg (fun b => [b]) copied
    simp only [Pipeline.inFlight, before, after, List.append_nil, List.append_assoc]
  have whole : requests (handled (past ++ [v])) ++
      Pipeline.inFlight { s with rx := s.rx.read bytes fits .push } = received (past ++ [v]) := by
    rw [newReceived, sameHandled, extended, ← List.append_assoc, faithful.whole looping]
  constructor
  · exact faithful.queue
  · rw [sameHandled]
    exact faithful.ecu
  · exact faithful.message
  · exact whole ▸ List.prefix_refl _
  · intro _
    exact whole
  · rw [sameSent, sameHandled]
    exact faithful.replies

/-- A push hands the message to the queue, waits, or loses it together with the loop. -/
theorem Faithful.push (faithful : Faithful boot past s) {v : PipelineVisit}
    (silent : v.output = none) (pc : s.rx.pc = .push) {q : UdsQueue} {r : Section Unit}
    (effect : PushEffect s.queue s.rx.block q r) :
    Faithful boot (past ++ [v])
      (match r with
        | .wait => { s with queue := q }
        | .done rc _ =>
            { s with
              queue := q
              rx := { s.rx with pc := if rc ≠ 0 then .shutdown else .check } }) := by
  have looping : s.rx.Looping := by simp [RxThread.Looping, pc]
  have hand : s.rx.inHand = [s.rx.block.bytes] := by simp [RxThread.inHand, pc]
  -- A failed push ends the loop: the message in hand is the only one that gets lost.
  have failed : Faithful boot (past ++ [v]) { s with rx := { s.rx with pc := .shutdown } } := by
    refine faithful.silent silent faithful.queue rfl faithful.message ?_ ?_ rfl
    · have empty : RxThread.inHand { s.rx with pc := .shutdown } = [] := rfl
      simp only [Pipeline.inFlight, empty, List.append_nil]
      exact List.prefix_append _ _
    · intro after
      exact absurd rfl after.1
  cases effect with
  | invalid => exact failed
  | closed => exact failed
  | full =>
      exact faithful.silent silent faithful.queue rfl faithful.message (List.prefix_refl _)
        (fun looping => ⟨looping, rfl⟩) rfl
  | pushed isOpen room inside stored stillOpen appended =>
      have same : Pipeline.inFlight { s with queue := q, rx := { s.rx with pc := .check } } =
          s.inFlight := by
        have empty : RxThread.inHand { s.rx with pc := .check } = [] := rfl
        simp only [Pipeline.inFlight, empty, appended, hand, List.append_nil, List.append_assoc]
      refine faithful.silent silent stored rfl faithful.message ?_ ?_ rfl
      · exact same ▸ List.prefix_refl _
      · intro _
        exact ⟨looping, same⟩

/-- Every step of the receiving thread. -/
theorem Faithful.rx (faithful : Faithful boot past s) (outcome : KioRecv) :
    Faithful boot (past ++ [visit pipelineStep s (.rx outcome)]) (rxStep s outcome).1 := by
  have output : (visit pipelineStep s (.rx outcome)).output = (rxStep s outcome).2 := rfl
  generalize visit pipelineStep s (.rx outcome) = v at output ⊢
  have holds : s.rx.pc ≠ .push → s.rx.inHand = [] := by
    intro other
    simp [RxThread.inHand, other]
  unfold rxStep at output ⊢
  cases pc : s.rx.pc with
  | check =>
      simp only [pc] at output ⊢
      refine faithful.rxMove output faithful.queue rfl ?_ (by simp [RxThread.Looping, pc])
      rw [holds (by simp [pc])]
      cases s.stop <;> rfl
  | recv =>
      have looping : s.rx.Looping := by simp [RxThread.Looping, pc]
      have nothing : [] = s.rx.inHand := (holds (by simp [pc])).symm
      simp only [pc] at output ⊢
      cases outcome with
      | signal => exact faithful.rxMove output faithful.queue rfl nothing fun _ => looping
      | timeout => exact faithful.rxMove output faithful.queue rfl nothing fun _ => looping
      | error => exact faithful.rxMove output faithful.queue rfl nothing fun _ => looping
      | message bytes fits =>
          by_cases empty : bytes.length = 0
          · simp only [empty, if_true] at output ⊢
            exact faithful.rxMove output faithful.queue rfl nothing fun _ => looping
          · simp only [empty, if_false] at output ⊢
            exact faithful.read output pc fits
  | push =>
      simp only [pc] at output ⊢
      have effect := udsQueuePush_effect faithful.queue s.rx.block
      generalize udsQueuePush s.queue s.rx.block = r at effect output ⊢
      obtain ⟨q, r⟩ := r
      have silent : v.output = none := by cases r <;> exact output
      have pushed := faithful.push silent pc effect
      cases r <;> exact pushed
  | shutdown =>
      simp only [pc] at output ⊢
      exact faithful.rxMove output faithful.queue.shutdown rfl (holds (by simp [pc])).symm
        fun after => absurd rfl after.2
  | exited =>
      simp only [pc] at output ⊢
      exact faithful.rxMove output faithful.queue rfl rfl id

/-- A step of the dispatching thread between two messages. -/
theorem Faithful.dispatchMove (faithful : Faithful boot past s) {v : PipelineVisit}
    (silent : v.output = none) {d : DispatchThread} (before : s.dispatch.inProcess = [])
    (idle : s.dispatch.pending = []) (pc : d.pc ≠ .process ∧ d.pc ≠ .send) :
    Faithful boot (past ++ [v]) { s with dispatch := d } := by
  have after : d.inProcess = [] := by simp [DispatchThread.inProcess, pc.1]
  have same : Pipeline.inFlight { s with dispatch := d } = s.inFlight := by
    simp only [Pipeline.inFlight, before, after]
  refine faithful.silent silent faithful.queue rfl (fun process => absurd process pc.1) ?_ ?_ ?_
  · exact same ▸ List.prefix_refl _
  · intro looping
    exact ⟨looping, same⟩
  · rw [idle]
    simp [DispatchThread.pending, pc.2]

/-- A pop takes the oldest message, waits, or finds the queue drained. -/
theorem Faithful.pop (faithful : Faithful boot past s) {v : PipelineVisit}
    (silent : v.output = none) (pc : s.dispatch.pc = .pop) {q : UdsQueue} {r : Section UdsMsg}
    (effect : PopEffect s.queue s.dispatch.msg q r) :
    Faithful boot (past ++ [v])
      (match r with
        | .wait => { s with queue := q }
        | .done rc msg =>
            { s with
              queue := q
              dispatch := { s.dispatch with
                pc := if rc ≠ 0 then .exited else .process
                msg := msg } }) := by
  have before : s.dispatch.inProcess = [] := by simp [DispatchThread.inProcess, pc]
  have idle : s.dispatch.pending = [] := by simp [DispatchThread.pending, pc]
  cases effect with
  | empty => exact faithful.rxMove silent faithful.queue rfl rfl id
  | drained =>
      exact faithful.dispatchMove silent before idle (d := { s.dispatch with pc := .exited })
        (by simp)
  | popped left closed m inside oldest =>
      have same : Pipeline.inFlight { s with
          queue := q, dispatch := { s.dispatch with pc := .process, msg := m } } = s.inFlight := by
        have after : DispatchThread.inProcess { s.dispatch with pc := .process, msg := m } =
            [m.bytes] := rfl
        simp only [Pipeline.inFlight, before, after, oldest, List.singleton_append,
          List.nil_append]
      refine faithful.silent silent left rfl (fun _ => inside) ?_ ?_ ?_
      · exact same ▸ List.prefix_refl _
      · intro looping
        exact ⟨looping, same⟩
      · rw [idle]
        rfl

/-- The response variables after a well-formed answer hold exactly that answer. -/
theorem DispatchThread.pending_answer {d : DispatchThread} {req : List UInt8} {reply : Reply}
    (formed : WellFormedAnswer req reply) :
    (d.answer reply).pending = if reply.rc = 0 then [reply.resp] else [] := by
  have written := formed.nonempty
  have length : reply.respLen.getD d.respLen = reply.resp.length := by rw [formed.respLen]; rfl
  have some : reply.resp.length ≠ 0 := by omega
  rcases formed.rc with zero | one
  · simp [DispatchThread.pending, DispatchThread.answer, length, zero, some]
  · simp [DispatchThread.pending, DispatchThread.answer, one]

/-- Processing the popped message is a step of the sequential server. -/
theorem Faithful.process (faithful : Faithful boot past s) (amb : Ambient) {v : PipelineVisit}
    (event : v.output = some (.handled ⟨.request s.dispatch.msg.bytes, amb⟩))
    (pc : s.dispatch.pc = .process) :
    Faithful boot (past ++ [v])
      { s with
        ecu := (udsProcessRequest amb s.ecu s.dispatch.msg.bytes udsMaxMsgLen).1
        dispatch := s.dispatch.answer
          (udsProcessRequest amb s.ecu s.dispatch.msg.bytes udsMaxMsgLen).2 } := by
  obtain ⟨sameReceived, newHandled, sameSent⟩ := events_handled past event
  have inside := faithful.message pc
  have nonempty : 1 ≤ s.dispatch.msg.bytes.length := by
    rw [UdsMsg.length_bytes inside.2]
    exact inside.1
  have formed := answer_wellFormed amb (serverRun_dids boot (handled past)) nonempty
  rw [← faithful.ecu] at formed
  generalize reply : (udsProcessRequest amb s.ecu s.dispatch.msg.bytes udsMaxMsgLen).2 = r
    at formed ⊢
  have idle : s.dispatch.pending = [] := by simp [DispatchThread.pending, pc]
  have leaves : (s.dispatch.answer r).pc ≠ .process := by
    simp only [DispatchThread.answer]
    split_ifs <;> simp
  have moved : ∀ ecu, requests (handled (past ++ [v])) ++
      Pipeline.inFlight { s with ecu := ecu, dispatch := s.dispatch.answer r } =
        requests (handled past) ++ s.inFlight := by
    intro ecu
    have process : s.dispatch.inProcess = [s.dispatch.msg.bytes] := by
      simp [DispatchThread.inProcess, pc]
    have done : (s.dispatch.answer r).inProcess = [] := by
      simp [DispatchThread.inProcess, leaves]
    simp only [Pipeline.inFlight, process, done, newHandled]
    simp [requests]
  constructor
  · exact faithful.queue
  · rw [newHandled, serverRun, run_snoc, ← serverRun, ← faithful.ecu]
    rfl
  · intro process
    exact absurd process leaves
  · rw [moved, sameReceived]
    exact faithful.order
  · intro looping
    rw [moved, sameReceived]
    exact faithful.whole looping
  · have replies := faithful.replies
    rw [idle, List.append_nil] at replies
    rw [sameSent, newHandled, answers_snoc, ← replies, DispatchThread.pending_answer formed,
      ← faithful.ecu]
    simp only [visit, serverStep, answer, reply]
    split_ifs <;> rfl

/-- Every step of the dispatching thread. -/
theorem Faithful.dispatch (faithful : Faithful boot past s) (amb : Ambient) :
    Faithful boot (past ++ [visit pipelineStep s (.dispatch amb)]) (dispatchStep s amb).1 := by
  have output : (visit pipelineStep s (.dispatch amb)).output = (dispatchStep s amb).2 := rfl
  generalize visit pipelineStep s (.dispatch amb) = v at output ⊢
  unfold dispatchStep at output ⊢
  cases pc : s.dispatch.pc with
  | check =>
      simp only [pc] at output ⊢
      refine faithful.dispatchMove output (by simp [DispatchThread.inProcess, pc])
        (by simp [DispatchThread.pending, pc]) ?_
      cases s.stop <;> simp
  | pop =>
      simp only [pc] at output ⊢
      have effect := udsQueuePopBlocking_effect faithful.queue s.dispatch.msg
      generalize udsQueuePopBlocking s.queue s.dispatch.msg = r at effect output ⊢
      obtain ⟨q, r⟩ := r
      have silent : v.output = none := by cases r <;> exact output
      have popped := faithful.pop silent pc effect
      cases r <;> exact popped
  | process =>
      simp only [pc] at output ⊢
      exact faithful.process amb output pc
  | send =>
      simp only [pc] at output ⊢
      obtain ⟨sameReceived, sameHandled, newSent⟩ := events_sent past output
      have pending : s.dispatch.pending = [s.dispatch.resp.take s.dispatch.respLen] := by
        simp [DispatchThread.pending, pc]
      have same : Pipeline.inFlight { s with dispatch := { s.dispatch with pc := .check } } =
          s.inFlight := by
        simp [Pipeline.inFlight, DispatchThread.inProcess, pc]
      constructor
      · exact faithful.queue
      · rw [sameHandled]
        exact faithful.ecu
      · simp
      · rw [sameReceived, sameHandled, same]
        exact faithful.order
      · intro looping
        rw [sameReceived, sameHandled, same]
        exact faithful.whole looping
      · rw [newSent, sameHandled, ← pending, faithful.replies]
        exact List.append_nil _
  | exited =>
      simp only [pc] at output ⊢
      exact faithful.rxMove output faithful.queue rfl rfl id

/-- A step of the S3 or the application thread is a step of the sequential server that
answers nothing. -/
theorem Faithful.background (faithful : Faithful boot past s) {v : PipelineVisit} {i : ServerInput}
    (event : v.output = some (.handled i)) (op : ∀ req, i.op ≠ .request req) :
    Faithful boot (past ++ [v]) { s with ecu := (serverStep s.ecu i).1 } := by
  obtain ⟨sameReceived, newHandled, sameSent⟩ := events_handled past event
  have noRequest : requests (handled past ++ [i]) = requests (handled past) := by
    cases h : i.op with
    | request req => exact absurd h (op req)
    | s3Iteration => simp [requests, h]
    | engineTick => simp [requests, h]
  have noAnswer : answer (visit serverStep (serverRun boot (handled past)) i) = none := by
    cases h : i.op with
    | request req => exact absurd h (op req)
    | s3Iteration => simp [answer, visit, serverStep, h]
    | engineTick => simp [answer, visit, serverStep, h]
  constructor
  · exact faithful.queue
  · rw [newHandled, serverRun, run_snoc, ← serverRun, ← faithful.ecu]
  · exact faithful.message
  · rw [sameReceived, newHandled, noRequest]
    exact faithful.order
  · intro looping
    rw [sameReceived, newHandled, noRequest]
    exact faithful.whole looping
  · rw [sameSent, newHandled, answers_snoc, noAnswer]
    simpa using faithful.replies

theorem Faithful.step (faithful : Faithful boot past s) (action : PipelineAction) :
    Faithful boot (past ++ [visit pipelineStep s action]) (pipelineStep s action).1 := by
  cases action with
  | signal =>
      exact faithful.silent rfl faithful.queue rfl faithful.message (List.prefix_refl _)
        (fun looping => ⟨looping, rfl⟩) rfl
  | mainShutdown => exact faithful.rxMove rfl faithful.queue.shutdown rfl rfl id
  | rx outcome => exact faithful.rx outcome
  | dispatch amb => exact faithful.dispatch amb
  | s3 amb => exact faithful.background rfl (by simp)
  | tick amb => exact faithful.background rfl (by simp)

end Steps

theorem Faithful.start (boot : UInt64) (buf msg resp : UdsMsg) :
    Faithful boot [] (.start boot buf msg resp) where
  queue := .init
  ecu := rfl
  message := by simp [Pipeline.start]
  order := by
    simp [Pipeline.inFlight, Pipeline.start, DispatchThread.inProcess, RxThread.inHand, handled,
      requests, received, UdsQueue.messages_eq_nil.mpr (rfl : udsQueueInit.count = 0)]
  whole := by
    simp [Pipeline.inFlight, Pipeline.start, DispatchThread.inProcess, RxThread.inHand, handled,
      requests, received, UdsQueue.messages_eq_nil.mpr (rfl : udsQueueInit.count = 0)]
  replies := rfl

/-- What a sequential server has answered at any earlier time is what it answers to a
prefix of its inputs. -/
theorem exists_prefix_answers {boot : UInt64} {inputs : List ServerInput}
    {bytes : List (List UInt8)} (early : bytes <+: answers boot inputs) :
    ∃ first, first <+: inputs ∧ bytes = answers boot first := by
  induction inputs using List.reverseRecOn with
  | nil => exact ⟨[], List.prefix_refl _, List.prefix_nil.mp early⟩
  | append_singleton past i ih =>
      rw [answers_snoc] at early
      cases h : answer (visit serverStep (serverRun boot past) i) with
      | none =>
          rw [h, Option.toList_none, List.append_nil] at early
          obtain ⟨first, inside, same⟩ := ih early
          exact ⟨first, inside.trans (List.prefix_append _ _), same⟩
      | some last =>
          rw [h, Option.toList_some] at early
          rcases List.prefix_concat_iff.mp early with whole | before
          · refine ⟨past ++ [i], List.prefix_refl _, ?_⟩
            rw [answers_snoc, h, whole, Option.toList_some]
          · obtain ⟨first, inside, same⟩ := ih before
            exact ⟨first, inside.trans (List.prefix_append _ _), same⟩

/-- **The pipeline is a sequential server.** For every schedule, the ECU has handled the
requests of a prefix of the received messages, in order, and is in the state of the
server that handles them one at a time; what was sent is exactly what that server
answers to a prefix of its inputs, to all of them unless a response is about to be sent.
While the receiving thread loops, every received message is accounted for. -/
theorem pipeline_is_sequential (boot : UInt64) (buf msg resp : UdsMsg)
    (schedule : List PipelineAction) :
    let visits := trace pipelineStep (.start boot buf msg resp) schedule
    let s := run pipelineStep (.start boot buf msg resp) schedule
    requests (handled visits) <+: received visits ∧
      s.ecu = serverRun boot (handled visits) ∧
      (∃ inputs, inputs <+: handled visits ∧ requests inputs <+: received visits ∧
        sent visits = answers boot inputs ∧
        (s.dispatch.pc ≠ .send → inputs = handled visits)) ∧
      (s.rx.Looping → requests (handled visits) ++ s.inFlight = received visits) := by
  intro visits s
  have faithful : Faithful boot visits s :=
    history_invariant pipelineStep (H := Faithful boot)
      (fun _ _ action faithful => faithful.step action) (.start boot buf msg resp) schedule
  have order : requests (handled visits) <+: received visits :=
    (List.prefix_append _ _).trans faithful.order
  refine ⟨order, faithful.ecu, ?_, faithful.whole⟩
  by_cases sending : s.dispatch.pc = .send
  · have early : sent visits <+: answers boot (handled visits) := by
      rw [← faithful.replies]
      exact List.prefix_append _ _
    obtain ⟨inputs, inside, same⟩ := exists_prefix_answers early
    refine ⟨inputs, inside, (inside.filterMap _).trans order, same, ?_⟩
    intro other
    exact absurd sending other
  · have idle : s.dispatch.pending = [] := by simp [DispatchThread.pending, sending]
    have replies := faithful.replies
    rw [idle, List.append_nil] at replies
    exact ⟨handled visits, List.prefix_refl _, order, replies, fun _ => rfl⟩

end VecuUds
