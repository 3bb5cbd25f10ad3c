import VecuUds.Queue.Basic
import VecuUds.Server.Answers

/-!
# The threaded pipeline

`rx_thread_main` and `dispatch_thread_main` share the request queue and the stop flag.
Each thread is a program counter with the variables that live across its loop: the
receive buffer and its length, the popped message, the response buffer and its length.
None of them is cleared between iterations, so a response could carry bytes or a length
of an earlier one; that it does not is part of what is proved.

One step of the system is one step of one thread, a signal that sets the stop flag, the
shutdown of the queue by `main`, or a step of the S3 or application thread at a request
boundary. A schedule is a list of such steps, in any order.
-/

namespace VecuUds

open Foundation

/-! ## The receiving thread -/

inductive RxPc where
  | check
  | recv
  | push
  | shutdown
  | exited
  deriving DecidableEq

structure RxThread where
  pc : RxPc
  buf : List UInt8
  len : Nat
  size : buf.length = udsMaxMsgLen
  fits : len ≤ udsMaxMsgLen

/-- What `isotp_kio_recv` can report: a complete message (or an empty read), an
interrupted or timed-out read, or an error. -/
inductive KioRecv where
  | message (bytes : List UInt8) (fits : bytes.length ≤ udsMaxMsgLen)
  | signal
  | timeout
  | error

/-- The variables after a successful read of `bytes`. -/
def RxThread.read (rx : RxThread) (bytes : List UInt8) (fits : bytes.length ≤ udsMaxMsgLen)
    (pc : RxPc) : RxThread where
  pc := pc
  buf := overwrite rx.buf 0 bytes
  len := bytes.length
  size := by
    rw [length_overwrite (by simpa [rx.size] using fits)]
    exact rx.size
  fits := fits

/-- The arguments of the push: `buf` and `len`. -/
def RxThread.block (rx : RxThread) : Block := ⟨rx.buf, rx.len, by rw [rx.size]; exact rx.fits⟩

/-! ## The dispatching thread -/

inductive DispatchPc where
  | check
  | pop
  | process
  | send
  | exited
  deriving DecidableEq

structure DispatchThread where
  pc : DispatchPc
  msg : UdsMsg
  resp : List UInt8
  respLen : Nat

/-- The response variables after `uds_process_request`: the written bytes, and the
length if the handler stored one. -/
def DispatchThread.answer (d : DispatchThread) (reply : Reply) : DispatchThread :=
  let resp := overwrite d.resp 0 reply.resp
  let respLen := reply.respLen.getD d.respLen
  let pc :=
    if reply.rc < 0 then DispatchPc.check
    else if reply.rc = 1 then .check
    else if respLen = 0 then .check
    else .send
  { d with pc := pc, resp := resp, respLen := respLen }

/-! ## The system -/

structure Pipeline where
  stop : Bool
  queue : UdsQueue
  rx : RxThread
  dispatch : DispatchThread
  ecu : EcuState

/-- The threads at their start. The stack variables `buf`, `msg` and `resp` hold
arbitrary bytes before their first assignment. -/
def Pipeline.start (boot : UInt64) (buf msg resp : UdsMsg) : Pipeline where
  stop := false
  queue := udsQueueInit
  rx := ⟨.check, buf.data, 0, buf.size, Nat.zero_le _⟩
  dispatch := ⟨.check, msg, resp.data, 0⟩
  ecu := vecuInit boot

inductive PipelineAction where
  | signal
  | mainShutdown
  | rx (outcome : KioRecv)
  | dispatch (amb : Ambient)
  | s3 (amb : Ambient)
  | tick (amb : Ambient)

/-- What an observer of the kernel socket and of the ECU state sees. -/
inductive PipelineEvent where
  | received (bytes : List UInt8)
  | handled (i : ServerInput)
  | sent (bytes : List UInt8)

/-- One step of `rx_thread_main`. The outcome is used at the read only. -/
def rxStep (s : Pipeline) (outcome : KioRecv) : Pipeline × Option PipelineEvent :=
  match s.rx.pc with
  | .check => ({ s with rx := { s.rx with pc := if s.stop then .shutdown else .recv } }, none)
  | .recv =>
      match outcome with
      | .signal => ({ s with rx := { s.rx with pc := .check } }, none)
      | .timeout => ({ s with rx := { s.rx with pc := .check } }, none)
      | .error => ({ s with rx := { s.rx with pc := .shutdown } }, none)
      | .message bytes fits =>
          if bytes.length = 0 then ({ s with rx := s.rx.read bytes fits .check }, none)
          else ({ s with rx := s.rx.read bytes fits .push }, some (.received bytes))
  | .push =>
      let r := udsQueuePush s.queue s.rx.block
      match r.2 with
      | .wait => ({ s with queue := r.1 }, none)
      | .done rc _ =>
          ({ s with queue := r.1, rx := { s.rx with pc := if rc ≠ 0 then .shutdown else .check } },
            none)
  | .shutdown =>
      ({ s with queue := udsQueueShutdown s.queue, rx := { s.rx with pc := .exited } }, none)
  | .exited => (s, none)

/-- One step of `dispatch_thread_main`. The surroundings are used by the handler only. -/
def dispatchStep (s : Pipeline) (amb : Ambient) : Pipeline × Option PipelineEvent :=
  match s.dispatch.pc with
  | .check =>
      ({ s with dispatch := { s.dispatch with pc := if s.stop then .exited else .pop } }, none)
  | .pop =>
      let r := udsQueuePopBlocking s.queue s.dispatch.msg
      match r.2 with
      | .wait => ({ s with queue := r.1 }, none)
      | .done rc msg =>
          ({ s with
              queue := r.1
              dispatch := { s.dispatch with
                pc := if rc ≠ 0 then .exited else .process
                msg := msg } }, none)
  | .process =>
      let r := udsProcessRequest amb s.ecu s.dispatch.msg.bytes udsMaxMsgLen
      ({ s with ecu := r.1, dispatch := s.dispatch.answer r.2 },
        some (.handled ⟨.request s.dispatch.msg.bytes, amb⟩))
  | .send =>
      ({ s with dispatch := { s.dispatch with pc := .check } },
        some (.sent (s.dispatch.resp.take s.dispatch.respLen)))
  | .exited => (s, none)

/-- A step of the S3 or the application thread, as `serverStep` has it. -/
def backgroundStep (s : Pipeline) (i : ServerInput) : Pipeline × Option PipelineEvent :=
  ({ s with ecu := (serverStep s.ecu i).1 }, some (.handled i))

def pipelineStep (s : Pipeline) : PipelineAction → Pipeline × Option PipelineEvent
  | .signal => ({ s with stop := true }, none)
  | .mainShutdown => ({ s with queue := udsQueueShutdown s.queue }, none)
  | .rx outcome => rxStep s outcome
  | .dispatch amb => dispatchStep s amb
  | .s3 amb => backgroundStep s ⟨.s3Iteration, amb⟩
  | .tick amb => backgroundStep s ⟨.engineTick, amb⟩

abbrev PipelineVisit := Visit Pipeline PipelineAction (Option PipelineEvent)

/-! ## What a run shows -/

/-- The messages delivered by the kernel. -/
def received (visits : List PipelineVisit) : List (List UInt8) :=
  visits.filterMap fun v =>
    match v.output with
    | some (.received bytes) => some bytes
    | _ => none

/-- The requests, S3 iterations and ticks, in the order in which they met the ECU. -/
def handled (visits : List PipelineVisit) : List ServerInput :=
  visits.filterMap fun v =>
    match v.output with
    | some (.handled i) => some i
    | _ => none

/-- The byte strings passed to `isotp_kio_send`. -/
def sent (visits : List PipelineVisit) : List (List UInt8) :=
  visits.filterMap fun v =>
    match v.output with
    | some (.sent bytes) => some bytes
    | _ => none

/-- The requests among the inputs of a server. -/
def requests (inputs : List ServerInput) : List (List UInt8) :=
  inputs.filterMap fun i =>
    match i.op with
    | .request req => some req
    | _ => none

/-- The response of a visit that the sequential server puts on the wire. -/
def answer (v : ServerVisit) : Option (List UInt8) :=
  match v.output with
  | some reply => if reply.rc = 0 then some reply.resp else none
  | none => none

/-- The responses of the sequential server that handles these inputs one at a time. -/
def answers (boot : UInt64) (inputs : List ServerInput) : List (List UInt8) :=
  (serverTrace boot inputs).filterMap answer

end VecuUds
