import VecuUds.Isotp.Delivery

/-!
# The handshake of a long message

Between two nodes there are four situations. Normally the frames on the way, together
with the consecutive frames the sender has still to write, feed the receiver. After a
first frame the sender waits: the first frame is behind other frames in the queue, then
the receiver has taken it and owes the answer, then the answer is on its way back.

Each lemma of this module says to which situation one call of one node leads.
-/

namespace VecuUds

open Foundation

/-- A sender between two first frames: it makes its calls without waiting. -/
inductive Ready : Option SendState → Prop where
  | idle : Ready none
  | single {p : List UInt8} (short : p.length ≤ 7) : Ready (some (.sf p))
  | first {p : List UInt8} (long : 7 < p.length) : Ready (some (.ff p))
  | consecutive {p : List UInt8} {offset : Nat} (sn : UInt8) (inside : offset < p.length) :
      Ready (some (.cf p offset sn))
  | finished : Ready (some (.done 0))

/-- A sender that has written the first frame of `p` and waits for the answer. -/
inductive Waits (p : List UInt8) : Option SendState → Prop where
  | enter : Waits p (some (.fcEnter p))
  | read (deadline : UInt64) : Waits p (some (.fcWait p deadline))
  | clock (deadline : UInt64) : Waits p (some (.fcForeign p deadline))

/-- The consecutive frames that an answered sender has still to write. -/
def unsent (link : IsotpLink) : Option SendState → List CanFrame
  | some (.cf p offset sn) => cfFrames link.t p offset sn
  | _ => []

theorem ready_sendLoop (p : List UInt8) (offset : Nat) (sn : UInt8) :
    Ready (some (sendLoop p offset sn)) := by
  unfold sendLoop
  split_ifs with inside
  · exact .consecutive sn inside
  · exact .finished

theorem unsent_sendLoop (link : IsotpLink) (p : List UInt8) (offset : Nat) (sn : UInt8) :
    unsent link (some (sendLoop p offset sn)) = cfFrames link.t p offset sn := by
  unfold sendLoop
  split_ifs with inside
  · rfl
  · exact (cfFrames_of_ge (Nat.le_of_not_lt inside)).symm

/-- The situation between the nodes: the sender's call, the receiver's call, the frames
with the sender's identifier on their way forward and those with the receiver's on their
way back, as a relation to the payloads in transit and the number of answers owed. -/
inductive Phase (link : IsotpLink) (cur : Option SendState) :
    RecvState → List CanFrame → List CanFrame → List (List UInt8) → Nat → Prop where
  | flowing {state : RecvState} {forward : List CanFrame} {ps : List (List UInt8)}
      (ready : Ready cur) (feeds : Feeds link state (forward ++ unsent link cur) ps) :
      Phase link cur state forward [] ps 0
  | queued {state : RecvState} {before : List CanFrame} {ps : List (List UInt8)}
      {p : List UInt8} (waits : Waits p cur) (member : p ∈ link.payloads) (long : 7 < p.length)
      (feeds : Feeds link state before ps) :
      Phase link cur state (before ++ [ffFrame link.t p]) [] (ps ++ [p]) 1
  | granted {v : RecvVars} {p : List UInt8} (waits : Waits p cur)
      (collecting : Collecting link p v) (got : v.got = 6) (sn : v.nextSn = 1) :
      Phase link cur (.sendFc v) [] [] [p] 1
  | acknowledged {state : RecvState} {v : RecvVars} {p : List UInt8} (waits : Waits p cur)
      (opened : state = .armFf v ∨ state = .loop v)
      (collecting : Collecting link p v) (got : v.got = 6) (sn : v.nextSn = 1) :
      Phase link cur state [] [fcFrame link.r] [p] 0

section Phases

variable {link : IsotpLink} {cur : Option SendState} {state : RecvState} {v : RecvVars}
  {forward backward : List CanFrame} {ps : List (List UInt8)} {owed : Nat}

/-! ## Calls of the receiver -/

/-- The receiver reads a frame of the sender. -/
theorem Phase.frame {f : CanFrame} (own : f.maskedId = link.t)
    (phase : Phase link cur (.loop v) (f :: forward) backward ps owed) :
    Phase link cur (recvResume link.receiverAddr link.outCap (.loop v) (.received f))
      forward backward ps owed := by
  generalize current : RecvState.loop v = state at phase
  generalize queue : f :: forward = all at phase
  cases phase with
  | flowing ready feeds =>
      subst current queue
      exact .flowing ready (feeds.frame own rfl)
  | @queued _ before ps p waits member long feeds =>
      subst current
      cases before with
      | cons g before =>
          obtain ⟨rfl, rfl⟩ := List.cons.inj queue
          exact .queued waits member long (feeds.frame own rfl)
      | nil =>
          -- the first frame itself: everything before it has been returned
          obtain ⟨rfl, rfl⟩ := List.cons.inj queue
          obtain ⟨closed, size, rfl⟩ := feeds.drained rfl
          have bounded : p.length ≤ isotpMaxPayload := (link.fits p member).2.1
          have fits : p.length ≤ link.outCap := (link.fits p member).2.2
          have mine : ¬ (ffFrame link.t p).maskedId ≠ link.receiverAddr.rxId := by
            intro other
            exact other own
          simp only [recvResume, if_neg mine, closed, Bool.false_eq_true, if_false,
            recvIdle_ffFrame v long bounded fits]
          exact .granted waits (.first member long size) rfl rfl
  | granted => cases queue
  | acknowledged => cases queue

/-- The receiver reads the clock. -/
theorem Phase.time (phase : Phase link cur state forward backward ps owed) (t : UInt64)
    (timely : state.timely t = true) (reads : recvCall link.receiverAddr state = .clock) :
    Phase link cur (recvResume link.receiverAddr link.outCap state (.time t))
      forward backward ps owed := by
  cases phase with
  | flowing ready feeds => exact .flowing ready (feeds.time t timely reads)
  | queued waits member long feeds => exact .queued waits member long (feeds.time t timely reads)
  | granted => cases reads
  | acknowledged waits opened collecting got sn =>
      obtain rfl | rfl := opened
      · exact .acknowledged waits (.inr rfl) (collecting.deadline _) got sn
      · cases reads

/-- The receiver writes the flow control it owes. -/
theorem Phase.answer (phase : Phase link cur (.sendFc v) forward backward ps owed) :
    owed = 1 ∧ Phase link cur (.armFf v) forward (backward ++ [fcFrame link.r]) ps 0 := by
  generalize current : RecvState.sendFc v = state at phase
  cases phase with
  | flowing ready feeds => subst current; cases feeds
  | queued waits member long feeds => subst current; cases feeds
  | granted waits collecting got sn =>
      cases current
      exact ⟨rfl, .acknowledged waits (.inl rfl) collecting got sn⟩
  | acknowledged waits opened =>
      subst current
      obtain impossible | impossible := opened <;> cases impossible

/-- The receiver returns the oldest payload in transit. -/
theorem Phase.return {rc : Int} (phase : Phase link cur (.done v rc) forward backward ps owed) :
    rc = 0 ∧ ∃ p rest, ps = p :: rest ∧ (v.out.take v.outLen, v.outLen) = (p, p.length) ∧
      Phase link cur (isotpRecv v.out v.outLen) forward backward rest owed := by
  generalize current : RecvState.done v rc = state at phase
  cases phase with
  | flowing ready feeds =>
      subst current
      obtain ⟨ok, p, rest, rfl, returned, feeds⟩ := feeds.return
      exact ⟨ok, p, rest, rfl, returned, .flowing ready feeds⟩
  | @queued _ before ps q waits member long feeds =>
      subst current
      obtain ⟨ok, p, rest, rfl, returned, feeds⟩ := feeds.return
      exact ⟨ok, p, rest ++ [q], rfl, returned, .queued waits member long feeds⟩
  | granted => cases current
  | acknowledged waits opened =>
      subst current
      obtain impossible | impossible := opened <;> cases impossible

/-! ## Calls of the sender -/

/-- A single frame is written. -/
theorem Phase.single {p : List UInt8} (member : p ∈ link.payloads)
    (phase : Phase link (some (.sf p)) state forward backward ps owed) :
    p.length ≤ 7 ∧ owed = 0 ∧
      Phase link (some (.done 0)) state (forward ++ [sfFrame link.t p]) backward (ps ++ [p]) 0 := by
  cases phase with
  | flowing ready feeds =>
      cases ready with
      | single short =>
          simp only [unsent, List.append_nil] at feeds
          refine ⟨short, rfl, .flowing .finished ?_⟩
          simp only [unsent, List.append_nil]
          exact feeds.append (.single member short .nil)
  | queued waits => cases waits
  | granted waits => cases waits
  | acknowledged waits => cases waits

/-- A first frame is written, and an answer to it is owed from now on. -/
theorem Phase.first {p : List UInt8} (member : p ∈ link.payloads)
    (phase : Phase link (some (.ff p)) state forward backward ps owed) :
    7 < p.length ∧ owed = 0 ∧
      Phase link (some (.fcEnter p)) state (forward ++ [ffFrame link.t p]) backward (ps ++ [p])
        1 := by
  cases phase with
  | flowing ready feeds =>
      cases ready with
      | first long =>
          simp only [unsent, List.append_nil] at feeds
          exact ⟨long, rfl, .queued .enter member long feeds⟩
  | queued waits => cases waits
  | granted waits => cases waits
  | acknowledged waits => cases waits

/-- A consecutive frame is written. -/
theorem Phase.consecutive {p : List UInt8} {offset : Nat} {sn : UInt8}
    (phase : Phase link (some (.cf p offset sn)) state forward backward ps owed) :
    Phase link (some (sendLoop p (offset + sendChunk p offset) ((sn + 1) &&& 0x0F))) state
      (forward ++ [cfFrame link.t sn ((p.drop offset).take (sendChunk p offset))])
      backward ps owed := by
  cases phase with
  | flowing ready feeds =>
      cases ready with
      | consecutive _ inside =>
          refine .flowing (ready_sendLoop _ _ _) ?_
          rw [unsent_sendLoop, List.append_assoc, List.singleton_append, ← cfFrames_of_lt inside]
          exact feeds
  | queued waits => cases waits
  | granted waits => cases waits
  | acknowledged waits => cases waits

/-- The sender waits, and goes on waiting in another of its three places. -/
theorem Phase.wait {p : List UInt8} {next : Option SendState} (now : Waits p cur)
    (after : Waits p next) (phase : Phase link cur state forward backward ps owed) :
    Phase link next state forward backward ps owed := by
  have same : ∀ {q : List UInt8}, Waits q cur → Waits q next := by
    intro q other
    have eq : p = q := by cases now <;> cases other <;> rfl
    exact eq ▸ after
  cases phase with
  | flowing ready feeds => cases now <;> cases ready
  | queued waits member long feeds => exact .queued (same waits) member long feeds
  | granted waits collecting got sn => exact .granted (same waits) collecting got sn
  | acknowledged waits opened collecting got sn =>
      exact .acknowledged (same waits) opened collecting got sn

/-- A frame with the receiver's identifier reaches the sender only as the answer to a
first frame, and the consecutive frames follow. -/
theorem Phase.answered {p : List UInt8} {f : CanFrame} {deadline : UInt64}
    (own : f.maskedId = link.r)
    (phase : Phase link (some (.fcWait p deadline)) state forward (f :: backward) ps owed) :
    Phase link (some (sendFlow link.senderAddr p deadline f)) state forward backward ps owed ∧
      ∃ offset sn, sendFlow link.senderAddr p deadline f = sendLoop p offset sn := by
  cases phase with
  | @acknowledged _ v q waits opened collecting got sn =>
      cases waits
      have mine : ¬ (fcFrame link.r).maskedId ≠ link.senderAddr.rxId := by
        intro other
        exact other own
      obtain ⟨pci, nibble⟩ := fcFrame_pci link.r
      have flow : sendFlow link.senderAddr p deadline (fcFrame link.r) = sendLoop p 6 1 := by
        simp only [sendFlow, if_neg mine, pci, nibble, ne_eq, not_true_eq_false, if_false, if_true]
      rw [flow]
      refine ⟨.flowing (ready_sendLoop _ _ _) ?_, 6, 1, rfl⟩
      have more : v.got < p.length := by
        have long := collecting.long
        omega
      rw [unsent_sendLoop, List.nil_append, ← got, ← sn, ← List.append_nil (cfFrames _ _ _ _)]
      obtain rfl | rfl := opened
      · exact .armFf collecting more .nil
      · exact .loop collecting more .nil

/-- The sender returns. -/
theorem Phase.finish {rc : Int}
    (phase : Phase link (some (.done rc)) state forward backward ps owed) :
    rc = 0 ∧ Phase link none state forward backward ps owed := by
  cases phase with
  | flowing ready feeds =>
      cases ready
      exact ⟨rfl, .flowing .idle feeds⟩
  | queued waits => cases waits
  | granted waits => cases waits
  | acknowledged waits => cases waits

/-- The sender starts its next call. -/
theorem Phase.start {p : List UInt8} (member : p ∈ link.payloads)
    (phase : Phase link none state forward backward ps owed) :
    Phase link (some (isotpSend p)) state forward backward ps owed := by
  obtain ⟨nonempty, bounded, -⟩ := link.fits p member
  have valid : ¬ (p.length = 0 ∨ p.length > isotpMaxPayload) := by omega
  cases phase with
  | flowing ready feeds =>
      rw [isotpSend, if_neg valid]
      split_ifs with short
      · exact .flowing (.single short) feeds
      · exact .flowing (.first (Nat.lt_of_not_ge short)) feeds
  | queued waits => cases waits
  | granted waits => cases waits
  | acknowledged waits => cases waits

/-- Outside a message the sender neither waits nor has frames of it to write. -/
theorem SenderNode.settled (link : IsotpLink) {n : SenderNode} (atStart : n.atStart = true) :
    unsent link n.current = [] ∧ ∀ p, ¬ Waits p n.current := by
  obtain ⟨pending, current, results⟩ := n
  cases current with
  | none => exact ⟨rfl, fun p waits => nomatch waits⟩
  | some state =>
      cases state with
      | sf | ff | done => exact ⟨rfl, fun p waits => nomatch waits⟩
      | fcEnter | fcWait | fcForeign | cf => cases atStart

/-- Another participant writes a stray frame. -/
theorem Phase.stray {n : SenderNode} {f : CanFrame} (stray : Stray link.outCap f)
    (atStart : n.atStart = true) (phase : Phase link n.current state forward backward ps owed) :
    Phase link n.current state (forward ++ [f]) backward ps owed := by
  obtain ⟨written, settled⟩ := SenderNode.settled link atStart
  cases phase with
  | flowing ready feeds =>
      refine .flowing ready ?_
      rw [written, List.append_nil] at feeds ⊢
      have extended := feeds.append (.stray stray .nil)
      rwa [List.append_nil] at extended
  | queued waits => exact absurd waits (settled _)
  | granted waits => exact absurd waits (settled _)
  | acknowledged waits => exact absurd waits (settled _)

end Phases

end VecuUds
