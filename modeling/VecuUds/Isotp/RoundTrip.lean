import VecuUds.Isotp.Handshake
import VecuUds.Isotp.Progress

/-!
# The end-to-end round trip

What is delivered, in transit and not yet started is at all times the given list of
payloads, and every flow control but the ones owed is written. One call of one node moves
one payload on, or none. When neither node can make a call there is nothing in transit
and nothing left to start, and the bound on the number of calls says that this point is
reached.
-/

namespace VecuUds

open Foundation

/-- The payloads of which no frame is written yet. -/
def SenderNode.unstarted (n : SenderNode) : List (List UInt8) :=
  match n.current with
  | some (.sf p) => p :: n.pending
  | some (.ff p) => p :: n.pending
  | _ => n.pending

/-- What the receiver returns for a payload: code, bytes and length. -/
def returnOf (p : List UInt8) : Int × List UInt8 × Nat := (0, p, p.length)

/-- The number of payloads that take more than one frame. -/
def longCount (ps : List (List UInt8)) : Nat := ps.countP fun p => 7 < p.length

theorem longCount_append (ps qs : List (List UInt8)) :
    longCount (ps ++ qs) = longCount ps + longCount qs :=
  List.countP_append

structure Transit (link : IsotpLink) (s : Bus) (delivered transit : List (List UInt8))
    (owed : Nat) : Prop where
  split : link.payloads = delivered ++ transit ++ s.sender.unstarted
  received : s.receiver.results = delivered.map returnOf
  succeeded : ∀ rc ∈ s.sender.results, rc = 0
  calls : s.sender.results.length + s.sender.current.toList.length + s.sender.pending.length =
    link.payloads.length
  answers : ∀ f ∈ s.receiver.written, f = fcFrame link.r
  answered : s.receiver.written.length + owed = longCount (delivered ++ transit)
  phase : Phase link s.sender.current s.receiver.current (framesOn link.t s.toReceiver)
    (framesOn link.r s.toSender) transit owed

section Sender

variable {link : IsotpLink} {s : Bus} {delivered ps : List (List UInt8)} {owed : Nat}

theorem start_transit (link : IsotpLink) : Transit link (.start link) [] [] 0 where
  split := rfl
  received := rfl
  succeeded := by simp [Bus.start]
  calls := by simp [Bus.start]
  answers := by simp [Bus.start]
  answered := rfl
  phase := .flowing .idle (.idle rfl rfl .nil)

/-- `isotp_send` of an admissible payload starts with its first or only frame. -/
theorem isotpSend_unstarted (link : IsotpLink) {p : List UInt8} (member : p ∈ link.payloads)
    (pending : List (List UInt8)) (results : List Int) :
    (SenderNode.mk pending (some (isotpSend p)) results).unstarted = p :: pending := by
  obtain ⟨nonempty, bounded, -⟩ := link.fits p member
  have valid : ¬ (p.length = 0 ∨ p.length > isotpMaxPayload) := by omega
  rw [isotpSend, if_neg valid]
  split_ifs <;> rfl

theorem sendLoop_unstarted (p : List UInt8) (offset : Nat) (sn : UInt8)
    (pending : List (List UInt8)) (results : List Int) :
    (SenderNode.mk pending (some (sendLoop p offset sn)) results).unstarted = pending := by
  unfold sendLoop
  split_ifs <;> rfl

theorem Transit.member (transit : Transit link s delivered ps owed) {p : List UInt8}
    (unstarted : p ∈ s.sender.unstarted) : p ∈ link.payloads := by
  rw [transit.split]
  exact List.mem_append_right _ unstarted

/-- A call of the sender that starts no payload: only its place and the queues change. -/
theorem Transit.resume (transit : Transit link s delivered ps owed) {state next : SendState}
    {toSender toReceiver : List CanFrame} (here : s.sender.current = some state)
    (unstarted : { s.sender with current := some next }.unstarted = s.sender.unstarted)
    (phase : Phase link (some next) s.receiver.current (framesOn link.t toReceiver)
      (framesOn link.r toSender) ps owed) :
    Transit link
      { s with
        sender := { s.sender with current := some next }
        toSender := toSender
        toReceiver := toReceiver } delivered ps owed where
  split := transit.split.trans (congrArg _ unstarted.symm)
  received := transit.received
  succeeded := transit.succeeded
  calls := by
    have calls := transit.calls
    rw [here] at calls
    exact calls
  answers := transit.answers
  answered := transit.answered
  phase := phase

/-- A call of the sender that writes the single or the first frame of a payload. -/
theorem Transit.begin (transit : Transit link s delivered ps 0) {state next : SendState}
    {p : List UInt8} {f : CanFrame} (here : s.sender.current = some state)
    (unstarted : s.sender.unstarted = p :: { s.sender with current := some next }.unstarted)
    (own : f.maskedId = link.t) (owes : owed = longCount [p])
    (phase : Phase link (some next) s.receiver.current (framesOn link.t s.toReceiver ++ [f])
      (framesOn link.r s.toSender) (ps ++ [p]) owed) :
    Transit link
      { s with
        sender := { s.sender with current := some next }
        toReceiver := s.toReceiver ++ [f] } delivered (ps ++ [p]) owed where
  split := by
    rw [transit.split, unstarted]
    simp only [List.append_assoc, List.singleton_append]
  received := transit.received
  succeeded := transit.succeeded
  calls := by
    have calls := transit.calls
    rw [here] at calls
    exact calls
  answers := transit.answers
  answered := by
    have answered := transit.answered
    rw [← List.append_assoc, longCount_append (delivered ++ ps), ← answered, owes]
    rfl
  phase := by
    rw [framesOn_snoc_own own]
    exact phase

/-- One call of the waiting sender. -/
theorem Transit.read (transit : Transit link s delivered ps owed) {p : List UInt8}
    {deadline : UInt64} (here : s.sender.current = some (.fcWait p deadline))
    {f : CanFrame} {rest : List CanFrame} (queue : s.toSender = f :: rest) :
    Transit link
      { s with
        sender := { s.sender with current := some (sendFlow link.senderAddr p deadline f) }
        toSender := rest } delivered ps owed := by
  have phase := transit.phase
  have settled : s.sender.unstarted = s.sender.pending := by rw [SenderNode.unstarted, here]
  rw [here, queue] at phase
  by_cases own : f.maskedId = link.r
  · rw [framesOn_cons_own own] at phase
    obtain ⟨phase, offset, sn, flow⟩ := phase.answered own
    refine transit.resume here ?_ phase
    rw [flow, sendLoop_unstarted, settled]
  · rw [framesOn_cons_other own] at phase
    have foreign : sendFlow link.senderAddr p deadline f = .fcForeign p deadline := if_pos own
    rw [foreign]
    exact transit.resume here settled.symm (phase.wait (.read deadline) (.clock deadline))

theorem Transit.sender_step (transit : Transit link s delivered ps owed) (t : UInt64) :
    ∃ ps owed, Transit link (senderStep link s t).1 delivered ps owed := by
  obtain ⟨⟨pending, current, results⟩, receiver, toSender, toReceiver⟩ := s
  have phase := transit.phase
  cases current with
  | none =>
      cases pending with
      | nil => exact ⟨ps, owed, transit⟩
      | cons p pending =>
          have member : p ∈ link.payloads := transit.member List.mem_cons_self
          have unstarted := isotpSend_unstarted link member pending results
          refine ⟨ps, owed, transit.split.trans (congrArg _ unstarted.symm), transit.received,
            transit.succeeded, ?_, transit.answers, transit.answered, phase.start member⟩
          have calls := transit.calls
          simp only [senderStep, Option.toList, List.length_cons, List.length_nil] at calls ⊢
          omega
  | some state =>
      cases state with
      | sf p =>
          have member : p ∈ link.payloads := transit.member List.mem_cons_self
          obtain ⟨short, rfl, next⟩ := phase.single member
          have owes : 0 = longCount [p] := by simp [longCount, short]
          exact ⟨ps ++ [p], 0, transit.begin rfl rfl (link.maskedId_sender _) owes next⟩
      | ff p =>
          have member : p ∈ link.payloads := transit.member List.mem_cons_self
          obtain ⟨long, rfl, next⟩ := phase.first member
          have owes : 1 = longCount [p] := by simp [longCount, long]
          exact ⟨ps ++ [p], 1, transit.begin rfl rfl (link.maskedId_sender _) owes next⟩
      | fcEnter p =>
          exact ⟨ps, owed, transit.resume rfl rfl (phase.wait .enter (.read (t + isotpNCrMs)))⟩
      | fcWait p deadline =>
          cases toSender with
          | nil => exact ⟨ps, owed, transit⟩
          | cons f rest => exact ⟨ps, owed, transit.read rfl rfl⟩
      | fcForeign p deadline =>
          refine ⟨ps, owed, ?_⟩
          simp only [senderStep, sendCall, SendState.timely, decide_eq_true_eq]
          by_cases within : t ≤ deadline
          · have early : ¬ t > deadline := UInt64.not_lt.mpr within
            simp only [if_pos within, sendResume, if_neg early]
            exact transit.resume rfl rfl (phase.wait (.clock deadline) (.read deadline))
          · simp only [if_neg within]
            exact transit
      | cf p offset sn =>
          have own : (cfFrame link.t sn ((p.drop offset).take (sendChunk p offset))).maskedId =
              link.t := link.maskedId_sender _
          have next := phase.consecutive
          rw [← framesOn_snoc_own own] at next
          exact ⟨ps, owed, transit.resume rfl (sendLoop_unstarted _ _ _ _ _) next⟩
      | done rc =>
          obtain ⟨ok, phase⟩ := phase.finish
          refine ⟨ps, owed, transit.split, transit.received, ?_, ?_, transit.answers,
            transit.answered, phase⟩
          · intro code member
            obtain old | new := List.mem_append.mp member
            · exact transit.succeeded code old
            · rwa [List.mem_singleton.mp new]
          · have calls := transit.calls
            simp only [senderStep, sendCall, Option.toList, List.length_append,
              List.length_cons, List.length_nil] at calls ⊢
            omega

end Sender

section Receiver

variable {link : IsotpLink} {s : Bus} {delivered ps : List (List UInt8)} {owed : Nat}

/-- A call of the receiver that neither writes nor returns. -/
theorem Transit.advance (transit : Transit link s delivered ps owed) {next : RecvState}
    {toReceiver : List CanFrame}
    (phase : Phase link s.sender.current next (framesOn link.t toReceiver)
      (framesOn link.r s.toSender) ps owed) :
    Transit link
      { s with receiver := { s.receiver with current := next }, toReceiver := toReceiver }
      delivered ps owed :=
  ⟨transit.split, transit.received, transit.succeeded, transit.calls, transit.answers,
    transit.answered, phase⟩

/-- The receiver reads a frame, of the sender or of somebody else. -/
theorem Transit.frame (transit : Transit link s delivered ps owed) {v : RecvVars}
    (here : s.receiver.current = .loop v) {f : CanFrame} {rest : List CanFrame}
    (queue : s.toReceiver = f :: rest) :
    Transit link
      { s with
        receiver := { s.receiver with
          current := recvResume link.receiverAddr link.outCap (.loop v) (.received f) }
        toReceiver := rest } delivered ps owed := by
  have phase := transit.phase
  rw [here, queue] at phase
  apply transit.advance
  by_cases own : f.maskedId = link.t
  · rw [framesOn_cons_own own] at phase
    exact phase.frame own
  · rw [framesOn_cons_other own] at phase
    have skipped : recvResume link.receiverAddr link.outCap (.loop v) (.received f) = .loop v :=
      if_pos own
    rwa [skipped]

theorem Transit.clock (transit : Transit link s delivered ps owed) (t : UInt64)
    (reads : recvCall link.receiverAddr s.receiver.current = .clock) :
    Transit link (receiverStep link s t).1 delivered ps owed := by
  simp only [receiverStep, reads]
  split_ifs with timely
  · exact transit.advance (transit.phase.time t timely reads)
  · exact transit

theorem Transit.receiver_step (transit : Transit link s delivered ps owed) (t : UInt64) :
    ∃ delivered ps owed, Transit link (receiverStep link s t).1 delivered ps owed := by
  obtain ⟨sender, ⟨current, results, written⟩, toSender, toReceiver⟩ := s
  have phase := transit.phase
  cases current with
  | loop v =>
      cases toReceiver with
      | nil => exact ⟨delivered, ps, owed, transit⟩
      | cons f rest => exact ⟨delivered, ps, owed, transit.frame rfl rfl⟩
  | armFf v => exact ⟨delivered, ps, owed, transit.clock t rfl⟩
  | check v f => exact ⟨delivered, ps, owed, transit.clock t rfl⟩
  | armCf v => exact ⟨delivered, ps, owed, transit.clock t rfl⟩
  | sendFc v =>
      obtain ⟨rfl, next⟩ := phase.answer
      have own : (fcFrame link.r).maskedId = link.r := link.maskedId_receiver _
      rw [← framesOn_snoc_own own] at next
      refine ⟨delivered, ps, 0, transit.split, transit.received, transit.succeeded, transit.calls,
        ?_, ?_, next⟩
      · intro f member
        obtain old | new := List.mem_append.mp member
        · exact transit.answers f old
        · exact List.mem_singleton.mp new
      · rw [← transit.answered]
        simp [receiverStep, recvCall]
  | done v rc =>
      obtain ⟨rfl, p, rest, rfl, returned, next⟩ := phase.return
      have regroup : delivered ++ [p] ++ rest = delivered ++ p :: rest := by simp
      refine ⟨delivered ++ [p], rest, owed, ?_, ?_, transit.succeeded, transit.calls,
        transit.answers, ?_, next⟩
      · rw [regroup]
        exact transit.split
      · have result : (0, v.out.take v.outLen, v.outLen) = returnOf p :=
          congrArg (Prod.mk 0) returned
        rw [List.map_append, ← transit.received, List.map_singleton, ← result]
        rfl
      · rw [regroup]
        exact transit.answered

end Receiver

/-- One step of the bus. -/
theorem Transit.step {link : IsotpLink} {s : Bus} {delivered ps : List (List UInt8)} {owed : Nat}
    (transit : Transit link s delivered ps owed) (a : BusAction) :
    ∃ delivered ps owed, Transit link (busStep link s a).1 delivered ps owed := by
  cases a with
  | sender t => exact ⟨delivered, transit.sender_step t⟩
  | receiver t => exact transit.receiver_step t
  | foreign f =>
      refine ⟨delivered, ps, owed, ?_⟩
      simp only [busStep]
      split_ifs with admitted
      · refine ⟨transit.split, transit.received, transit.succeeded, transit.calls,
          transit.answers, transit.answered, ?_⟩
        simp only [Bus.broadcast]
        rw [framesOn_snoc_other admitted.1, framesOn_snoc_other admitted.2]
        exact transit.phase
      · exact transit
  | stray f =>
      refine ⟨delivered, ps, owed, ?_⟩
      simp only [busStep]
      split_ifs with admitted
      · obtain ⟨own, stray, atStart⟩ := admitted
        have other : f.maskedId ≠ link.r := own ▸ link.distinct
        refine ⟨transit.split, transit.received, transit.succeeded, transit.calls,
          transit.answers, transit.answered, ?_⟩
        simp only [Bus.broadcast]
        rw [framesOn_snoc_own own, framesOn_snoc_other other]
        exact transit.phase.stray stray atStart
      · exact transit

theorem busRun_transit (link : IsotpLink) (schedule : List BusAction) :
    ∃ delivered ps owed, Transit link (busRun link schedule) delivered ps owed := by
  have preserved : ∀ s a, (∃ delivered ps owed, Transit link s delivered ps owed) →
      ∃ delivered ps owed, Transit link (busStep link s a).1 delivered ps owed := by
    rintro s a ⟨delivered, ps, owed, transit⟩
    exact transit.step a
  exact run_invariant (busStep link) preserved ⟨[], [], 0, start_transit link⟩ schedule

/-! ## Completion -/

/-- Every send returned 0, every payload was returned in order with its length, and one
flow control was written for each payload that takes more than one frame. -/
def Bus.Complete (link : IsotpLink) (s : Bus) : Prop :=
  s.sender.results = List.replicate link.payloads.length 0 ∧
    s.receiver.results = link.payloads.map returnOf ∧
      s.receiver.written = List.replicate (longCount link.payloads) (fcFrame link.r)

/-- The sender is held up only by an empty queue, or because all its calls are made. -/
theorem sender_held {link : IsotpLink} {s : Bus} (held : (senderStep link s 0).2 ≠ .call) :
    (s.sender.current = none ∨
        (∃ p deadline, s.sender.current = some (.fcWait p deadline)) ∧ s.toSender = []) ∧
      (s.sender.current = none → s.sender.pending = []) := by
  obtain ⟨⟨pending, current, results⟩, receiver, toSender, toReceiver⟩ := s
  cases current with
  | none =>
      cases pending with
      | nil => exact ⟨.inl rfl, fun _ => rfl⟩
      | cons p pending => exact absurd rfl held
  | some state =>
      cases state with
      | fcWait p deadline =>
          cases toSender with
          | nil => exact ⟨.inr ⟨⟨p, deadline, rfl⟩, rfl⟩, fun idle => nomatch idle⟩
          | cons f rest => exact absurd rfl held
      | fcForeign p deadline =>
          have timely : (SendState.fcForeign p deadline).timely 0 = true :=
            decide_eq_true (UInt64.zero_le : 0 ≤ deadline)
          simp [senderStep, sendCall, timely] at held
      | sf | ff | fcEnter | cf | done => exact absurd rfl held

/-- The receiver is held up only by an empty queue. -/
theorem receiver_held {link : IsotpLink} {s : Bus} (held : (receiverStep link s 0).2 ≠ .call) :
    (∃ v, s.receiver.current = .loop v) ∧ s.toReceiver = [] := by
  obtain ⟨sender, ⟨current, results, written⟩, toSender, toReceiver⟩ := s
  cases current with
  | loop v =>
      cases toReceiver with
      | nil => exact ⟨⟨v, rfl⟩, rfl⟩
      | cons f rest => exact absurd rfl held
  | check v f =>
      have timely : (RecvState.check v f).timely 0 = true :=
        decide_eq_true (UInt64.zero_le : 0 ≤ v.deadline)
      simp [receiverStep, recvCall, timely] at held
  | sendFc | armFf | armCf | done => exact absurd rfl held

/-- With both nodes held up nothing is in transit. -/
theorem Phase.held {link : IsotpLink} {cur : Option SendState} {v : RecvVars}
    {forward backward : List CanFrame} {ps : List (List UInt8)} {owed : Nat}
    (phase : Phase link cur (.loop v) forward backward ps owed) (empty : forward = [])
    (sender : cur = none ∨ (∃ p deadline, cur = some (.fcWait p deadline)) ∧ backward = []) :
    cur = none ∧ ps = [] ∧ owed = 0 := by
  generalize current : RecvState.loop v = state at phase
  cases phase with
  | flowing ready feeds =>
      subst current empty
      obtain rfl | ⟨⟨p, deadline, rfl⟩, -⟩ := sender
      · exact ⟨rfl, (feeds.drained rfl).2.2, rfl⟩
      · cases ready
  -- the first frame would still be in the receiver's queue
  | queued => simp at empty
  | granted => cases current
  -- the answer would still be in the sender's queue
  | acknowledged waits =>
      obtain rfl | ⟨-, silent⟩ := sender
      · cases waits
      · cases silent

theorem Transit.complete {link : IsotpLink} {s : Bus} {delivered ps : List (List UInt8)}
    {owed : Nat} (transit : Transit link s delivered ps owed)
    (sender : (senderStep link s 0).2 ≠ .call) (receiver : (receiverStep link s 0).2 ≠ .call) :
    s.Complete link := by
  obtain ⟨⟨v, reading⟩, empty⟩ := receiver_held receiver
  obtain ⟨blocked, last⟩ := sender_held sender
  have phase := transit.phase
  rw [reading, empty] at phase
  have silent : s.toSender = [] → framesOn link.r s.toSender = [] := by
    intro none
    rw [none, framesOn_nil]
  obtain ⟨idle, rfl, rfl⟩ := phase.held rfl (blocked.imp_right (And.imp_right silent))
  have finished := last idle
  have unstarted : s.sender.unstarted = [] := by rw [SenderNode.unstarted, idle, finished]
  have all : link.payloads = delivered := by
    rw [transit.split, unstarted, List.append_nil, List.append_nil]
  have calls := transit.calls
  have answered := transit.answered
  rw [idle, finished] at calls
  rw [List.append_nil, ← all] at answered
  refine ⟨List.eq_replicate_iff.mpr ⟨calls, transit.succeeded⟩, ?_,
    List.eq_replicate_iff.mpr ⟨answered, transit.answers⟩⟩
  rw [transit.received, all]

/-- The round trip. In every state of every run, the sends that have returned returned
0, the receiver has returned the first payloads, each with its length, and has written
nothing but flow controls; unless everything is complete one of the nodes can make a
call; and the number of calls is bounded by the payloads and the frames of others. -/
theorem isotp_round_trip (link : IsotpLink) (schedule : List BusAction) :
    (∀ rc ∈ (busRun link schedule).sender.results, rc = 0) ∧
      (busRun link schedule).receiver.results <+: link.payloads.map returnOf ∧
      (∀ f ∈ (busRun link schedule).receiver.written, f = fcFrame link.r) ∧
      (busRun link schedule).receiver.written.length ≤ longCount link.payloads ∧
      ((busRun link schedule).Complete link ∨
        ∃ t, (senderStep link (busRun link schedule) t).2 = .call ∨
          (receiverStep link (busRun link schedule) t).2 = .call) ∧
      (busTrace link schedule).countP (fun v => v.output.isCall) ≤
        (Bus.start link).weight link +
          7 * (busTrace link schedule).countP (fun v => v.output.isFrame) := by
  obtain ⟨delivered, ps, owed, transit⟩ := busRun_transit link schedule
  refine ⟨transit.succeeded, ?_, transit.answers, ?_, ?_, calls_bounded link schedule⟩
  · rw [transit.received, transit.split, List.append_assoc, List.map_append]
    exact List.prefix_append _ _
  · have answered := transit.answered
    rw [transit.split, longCount_append]
    omega
  · by_cases sender : (senderStep link (busRun link schedule) 0).2 = .call
    · exact .inr ⟨0, .inl sender⟩
    · by_cases receiver : (receiverStep link (busRun link schedule) 0).2 = .call
      · exact .inr ⟨0, .inr receiver⟩
      · exact .inl (transit.complete sender receiver)

/-- Eight bytes in two frames, with a stray consecutive frame in front. -/
example :
    let p : List UInt8 := [1, 2, 3, 4, 5, 6, 7, 8]
    let link : IsotpLink :=
      ⟨0x7E0, 0x7E8, List.replicate 8 0, [p], by decide, by decide, by decide⟩
    let s := busRun link
      ([.stray (cfFrame 0x7E0 3 p)] ++ List.replicate 3 (.sender 0) ++
        List.replicate 4 (.receiver 0) ++ List.replicate 5 (.sender 5) ++
        List.replicate 4 (.receiver 5))
    s.sender.results = [0] ∧ s.receiver.results = [(0, p, 8)] ∧
      s.receiver.written = [fcFrame 0x7E8] := by
  decide +kernel

end VecuUds
