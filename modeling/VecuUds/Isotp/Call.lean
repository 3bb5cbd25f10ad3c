import VecuUds.Foundation.Trace
import VecuUds.Isotp.Segmentation

/-!
# Recorded calls

A call of `isotp_send` or `isotp_recv` as a run that is recorded: every answer it gets, the
place it got it in, and what the call did to the bus with it. The frames that a call has
consumed and the frames that it has emitted are read off the record.
-/

namespace VecuUds

open Foundation

/-! ## Frames by identifier -/

def framesOn (id : UInt32) (queue : List CanFrame) : List CanFrame :=
  queue.filter fun f => f.maskedId = id

section Queues

variable {id : UInt32} {f : CanFrame}

@[simp] theorem framesOn_nil : framesOn id [] = [] := rfl

theorem framesOn_append (first second : List CanFrame) :
    framesOn id (first ++ second) = framesOn id first ++ framesOn id second :=
  List.filter_append _ _

theorem framesOn_cons_own (own : f.maskedId = id) (rest : List CanFrame) :
    framesOn id (f :: rest) = f :: framesOn id rest := by
  simp [framesOn, own]

theorem framesOn_cons_other (other : f.maskedId ≠ id) (rest : List CanFrame) :
    framesOn id (f :: rest) = framesOn id rest := by
  simp [framesOn, other]

theorem framesOn_snoc_own (own : f.maskedId = id) (queue : List CanFrame) :
    framesOn id (queue ++ [f]) = framesOn id queue ++ [f] := by
  rw [framesOn_append, framesOn_cons_own own]
  rfl

theorem framesOn_snoc_other (other : f.maskedId ≠ id) (queue : List CanFrame) :
    framesOn id (queue ++ [f]) = framesOn id queue := by
  rw [framesOn_append, framesOn_cons_other other, framesOn_nil, List.append_nil]

end Queues

/-- A flow control with this status. -/
def IsFlow (status : UInt8) (f : CanFrame) : Prop := f.pci = pciFc ∧ f.nibble = status

instance (status : UInt8) (f : CanFrame) : Decidable (IsFlow status f) :=
  inferInstanceAs (Decidable (_ ∧ _))

/-! ## The record of a call -/

/-- What an answered call did to the bus. -/
inductive IsotpEvent where
  | consumed (f : CanFrame)
  | emitted (f : CanFrame)
  deriving DecidableEq

/-- A read consumes the frame it delivers, a write emits its frame if it succeeds. -/
def ioEvent : IoCall → IoAnswer → Option IsotpEvent
  | .recv, .received f => some (.consumed f)
  | .send f, .sent rc => if rc = 0 then some (.emitted f) else none
  | _, _ => none

def sendStep (addr : IsotpAddr) (s : SendState) (a : IoAnswer) :
    SendState × Option IsotpEvent :=
  (sendResume addr s a, ioEvent (sendCall addr s) a)

def recvStep (addr : IsotpAddr) (outCap : Nat) (s : RecvState) (a : IoAnswer) :
    RecvState × Option IsotpEvent :=
  (recvResume addr outCap s a, ioEvent (recvCall addr s) a)

abbrev SendVisit := Visit SendState IoAnswer (Option IsotpEvent)

abbrev RecvVisit := Visit RecvState IoAnswer (Option IsotpEvent)

/-- The record of a call of `isotp_send` that gets these answers. -/
def sendTrace (addr : IsotpAddr) (data : List UInt8) (answers : List IoAnswer) :
    List SendVisit :=
  trace (sendStep addr) (isotpSend data) answers

/-- Where the call stands after these answers. -/
def sendRun (addr : IsotpAddr) (data : List UInt8) (answers : List IoAnswer) : SendState :=
  run (sendStep addr) (isotpSend data) answers

/-- The record of a call of `isotp_recv` that gets these answers. -/
def recvTrace (addr : IsotpAddr) (out : List UInt8) (outCap outLen : Nat)
    (answers : List IoAnswer) : List RecvVisit :=
  trace (recvStep addr outCap) (isotpRecv out outLen) answers

/-- Where the call stands after these answers. -/
def recvRun (addr : IsotpAddr) (out : List UInt8) (outCap outLen : Nat)
    (answers : List IoAnswer) : RecvState :=
  run (recvStep addr outCap) (isotpRecv out outLen) answers

section Frames

variable {σ : Type} (past : List (Visit σ IoAnswer (Option IsotpEvent)))

/-- The frames that a recorded call has read, whatever their identifier. -/
def consumedFrames : List CanFrame :=
  past.filterMap fun v =>
    match v.output with
    | some (.consumed f) => some f
    | _ => none

/-- The frames that a recorded call has written. -/
def emittedFrames : List CanFrame :=
  past.filterMap fun v =>
    match v.output with
    | some (.emitted f) => some f
    | _ => none

theorem consumedFrames_snoc (v : Visit σ IoAnswer (Option IsotpEvent)) :
    consumedFrames (past ++ [v]) = consumedFrames past ++ consumedFrames [v] :=
  List.filterMap_append

theorem emittedFrames_append (first second : List (Visit σ IoAnswer (Option IsotpEvent))) :
    emittedFrames (first ++ second) = emittedFrames first ++ emittedFrames second :=
  List.filterMap_append

theorem emittedFrames_snoc (v : Visit σ IoAnswer (Option IsotpEvent)) :
    emittedFrames (past ++ [v]) = emittedFrames past ++ emittedFrames [v] :=
  List.filterMap_append

end Frames

/-- The frames with the receiver's identifier among the consumed ones. -/
def ownFrames (addr : IsotpAddr) (past : List RecvVisit) : List CanFrame :=
  framesOn addr.rxId (consumedFrames past)

theorem ownFrames_append (addr : IsotpAddr) (first second : List RecvVisit) :
    ownFrames addr (first ++ second) = ownFrames addr first ++ ownFrames addr second := by
  have frames : consumedFrames (first ++ second) = consumedFrames first ++ consumedFrames second :=
    List.filterMap_append
  rw [ownFrames, frames, framesOn_append]
  rfl

/-- A clock reading that the receiver compares with a deadline lies within it. -/
def RecvState.timely (s : RecvState) (t : UInt64) : Bool :=
  match s with
  | .check v _ => t ≤ v.deadline
  | _ => true

/-- The code with which an answer ends the call from outside: a read is interrupted or
fails, a write fails, or a reading is past the deadline it is compared with. -/
def cutCode (v : RecvVisit) : Option Int :=
  match v.before, v.input with
  | .loop _, .interrupted => some 1
  | .loop _, .failed => some (-1)
  | .sendFc _, .sent rc => if rc ≠ 0 then some (-1) else none
  | .check vars f, .time t => if (RecvState.check vars f).timely t then none else some (-1)
  | _, _ => none

/-! ## What a completed send has written -/

/-- The frames that a call of `isotp_send` has still to write. -/
def SendState.owed (addr : IsotpAddr) : SendState → List CanFrame
  | .sf data => [sfFrame addr.txId data]
  | .ff data => ffFrame addr.txId data :: cfFrames addr.txId data 6 1
  | .fcEnter data => cfFrames addr.txId data 6 1
  | .fcWait data _ => cfFrames addr.txId data 6 1
  | .fcForeign data _ => cfFrames addr.txId data 6 1
  | .cf data offset sn =>
      cfFrame addr.txId sn ((data.drop offset).take (sendChunk data offset)) ::
        cfFrames addr.txId data (offset + sendChunk data offset) ((sn + 1) &&& 0x0F)
  | .done _ => []

def SendState.failed : SendState → Bool
  | .done rc => rc ≠ 0
  | _ => false

section Send

variable (addr : IsotpAddr)

theorem owed_sendLoop (data : List UInt8) (offset : Nat) (sn : UInt8) :
    (sendLoop data offset sn).owed addr = cfFrames addr.txId data offset sn := by
  unfold sendLoop
  split_ifs with inside
  · rw [cfFrames_of_lt inside]
    rfl
  · rw [cfFrames_of_ge (Nat.le_of_not_lt inside)]
    rfl

/-- A failed write ends the call. -/
private theorem ok_of_sent {s : SendState} {rc : Int}
    (good : (if rc ≠ 0 then SendState.done (-1) else s).failed = false) : rc = 0 := by
  by_contra bad
  rw [if_pos bad] at good
  cases good

theorem owed_sendFlow (data : List UInt8) (deadline : UInt64) (f : CanFrame)
    (good : (sendFlow addr data deadline f).failed = false) :
    (sendFlow addr data deadline f).owed addr = cfFrames addr.txId data 6 1 := by
  simp only [sendFlow] at good ⊢
  split_ifs at good ⊢
  · rfl
  · cases good
  · exact owed_sendLoop addr data 6 1
  · rfl
  · cases good

/-- What a step writes and what it then owes is what the call owed before, unless the call
fails with it. -/
theorem owed_sendStep (s : SendState) (a : IoAnswer)
    (good : (sendStep addr s a).1.failed = false) :
    emittedFrames [visit (sendStep addr) s a] ++ (sendStep addr s a).1.owed addr =
      s.owed addr := by
  cases s with
  | sf data =>
      cases a with
      | sent rc =>
          have zero : rc = 0 := by simpa [sendStep, sendResume, SendState.failed] using good
          subst zero
          rfl
      | _ => rfl
  | ff data =>
      cases a with
      | sent rc =>
          have zero : rc = 0 := ok_of_sent good
          subst zero
          rfl
      | _ => rfl
  | fcEnter data => cases a <;> rfl
  | fcWait data deadline =>
      cases a with
      | received f => exact owed_sendFlow addr data deadline f good
      | failed => cases good
      | _ => rfl
  | fcForeign data deadline =>
      cases a with
      | time t =>
          simp only [sendStep, sendResume] at good ⊢
          split_ifs at good ⊢
          · cases good
          · rfl
      | _ => rfl
  | cf data offset sn =>
      cases a with
      | sent rc =>
          have zero : rc = 0 := ok_of_sent good
          subst zero
          exact congrArg _ (owed_sendLoop addr data _ _)
      | _ => rfl
  | done rc => cases a <;> rfl

/-- A call that has not failed has written all its frames but those it still owes. -/
theorem emitted_sendRun (data : List UInt8) (answers : List IoAnswer)
    (good : (sendRun addr data answers).failed = false) :
    emittedFrames (sendTrace addr data answers) ++ (sendRun addr data answers).owed addr =
      (isotpSend data).owed addr := by
  refine history_invariant (H := fun past s => s.failed = false →
    emittedFrames past ++ s.owed addr = (isotpSend data).owed addr)
    (sendStep addr) ?_ (fun _ => rfl) answers good
  intro past s a before good
  have sound : s.failed = false := by
    cases s with
    | done rc => cases a <;> exact good
    | _ => rfl
  rw [emittedFrames_snoc, List.append_assoc, owed_sendStep addr s a good, before sound]

/-- A call that has returned does nothing more. -/
theorem run_sendStep_done (rc : Int) (answers : List IoAnswer) :
    run (sendStep addr) (.done rc) answers = .done rc ∧
      emittedFrames (trace (sendStep addr) (.done rc) answers) = [] := by
  induction answers with
  | nil => exact ⟨rfl, rfl⟩
  | cons a rest ih => cases a <;> exact ih

theorem isotpSend_long {data : List UInt8} (long : 7 < data.length)
    (bounded : data.length ≤ isotpMaxPayload) : isotpSend data = .ff data := by
  rw [isotpSend, if_neg (by omega), if_neg (by omega)]

/-- The frames of a message that takes more than one, once it is sent. -/
theorem emitted_of_completed {data : List UInt8} {answers : List IoAnswer}
    (long : 7 < data.length) (bounded : data.length ≤ isotpMaxPayload)
    (completed : sendRun addr data answers = .done 0) :
    emittedFrames (sendTrace addr data answers) =
      ffFrame addr.txId data :: cfFrames addr.txId data 6 1 := by
  have all := emitted_sendRun addr data answers (by rw [completed]; rfl)
  have none : (SendState.done 0).owed addr = [] := rfl
  rwa [completed, none, List.append_nil, isotpSend_long long bounded] at all

end Send

end VecuUds
