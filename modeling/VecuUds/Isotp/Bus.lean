import VecuUds.Isotp.Call

/-!
# Two nodes on a bus

One node calls `isotp_send` for each payload of a list in turn, its peer calls
`isotp_recv` again and again with the same buffer. The bus is lossless and keeps the
order: a written frame arrives at every other node, and each node has a queue of the
frames it has not read yet. Other participants may write foreign frames at any time, and
stray frames with the sender's identifier before the first frame of a message.

One step is one call of one node, or one frame of another participant. A step that
cannot happen (a read from an empty queue, a clock reading past the deadline it is
compared with, a frame that is not admitted) leaves the system as it is.
-/

namespace VecuUds

open Foundation

/-- Two distinct standard identifiers, a receive buffer with what it holds at first, and
payloads that fit. -/
structure IsotpLink where
  t : UInt32
  r : UInt32
  buffer : List UInt8
  payloads : List (List UInt8)
  standard : t < 0x800 ∧ r < 0x800
  distinct : t ≠ r
  fits : ∀ p ∈ payloads, 1 ≤ p.length ∧ p.length ≤ isotpMaxPayload ∧ p.length ≤ buffer.length

namespace IsotpLink

variable (link : IsotpLink)

def outCap : Nat := link.buffer.length

def senderAddr : IsotpAddr := ⟨link.r, link.t⟩

def receiverAddr : IsotpAddr := ⟨link.t, link.r⟩

end IsotpLink

/-- The payloads not yet passed to `isotp_send`, the call in progress, and the codes
that earlier calls returned. -/
structure SenderNode where
  pending : List (List UInt8)
  current : Option SendState
  results : List Int

/-- The call in progress, what earlier calls returned (code, bytes and length), and the
frames written so far. -/
structure ReceiverNode where
  current : RecvState
  results : List (Int × List UInt8 × Nat)
  written : List CanFrame

structure Bus where
  sender : SenderNode
  receiver : ReceiverNode
  toSender : List CanFrame
  toReceiver : List CanFrame

/-- Both nodes at their start, the receiving one in its first call. -/
def Bus.start (link : IsotpLink) : Bus where
  sender := ⟨link.payloads, none, []⟩
  receiver := ⟨isotpRecv link.buffer 0, [], []⟩
  toSender := []
  toReceiver := []

inductive BusAction where
  | sender (t : UInt64)
  | receiver (t : UInt64)
  | foreign (f : CanFrame)
  | stray (f : CanFrame)

/-- What a step was: a call of a node, a frame of another participant, or nothing. -/
inductive BusEvent where
  | call
  | frame
  | nothing
  deriving DecidableEq

/-- The sender is not inside a message: no frame of it is written, or all of them are. -/
def SenderNode.atStart (n : SenderNode) : Bool :=
  match n.current with
  | none => true
  | some (.sf _) => true
  | some (.ff _) => true
  | some (.done _) => true
  | _ => false

/-- A clock reading that the sender compares with a deadline lies within it. -/
def SendState.timely (s : SendState) (t : UInt64) : Bool :=
  match s with
  | .fcForeign _ deadline => t ≤ deadline
  | _ => true

/-- One call of the sending node, or the start of its next call of `isotp_send`. -/
def senderStep (link : IsotpLink) (s : Bus) (t : UInt64) : Bus × BusEvent :=
  match s.sender.current with
  | none =>
      match s.sender.pending with
      | [] => (s, .nothing)
      | p :: rest =>
          ({ s with sender := { s.sender with pending := rest, current := some (isotpSend p) } },
            .call)
  | some state =>
      let next answer := { s.sender with current := some (sendResume link.senderAddr state answer) }
      match sendCall link.senderAddr state with
      | .ret rc =>
          ({ s with
              sender := { s.sender with current := none, results := s.sender.results ++ [rc] } },
            .call)
      | .send f => ({ s with sender := next (.sent 0), toReceiver := s.toReceiver ++ [f] }, .call)
      | .clock =>
          if state.timely t then ({ s with sender := next (.time t) }, .call) else (s, .nothing)
      | .recv =>
          match s.toSender with
          | [] => (s, .nothing)
          | f :: rest => ({ s with sender := next (.received f), toSender := rest }, .call)

/-- The variables of a call of `isotp_recv`. -/
def RecvState.vars : RecvState → RecvVars
  | .loop v => v
  | .sendFc v => v
  | .armFf v => v
  | .check v _ => v
  | .armCf v => v
  | .done v _ => v

/-- One call of the receiving node, or the return and the next call of `isotp_recv`. -/
def receiverStep (link : IsotpLink) (s : Bus) (t : UInt64) : Bus × BusEvent :=
  let state := s.receiver.current
  let next answer :=
    { s.receiver with current := recvResume link.receiverAddr link.outCap state answer }
  match recvCall link.receiverAddr state with
  | .ret rc =>
      let v := state.vars
      ({ s with
          receiver := { s.receiver with
            current := isotpRecv v.out v.outLen
            results := s.receiver.results ++ [(rc, v.out.take v.outLen, v.outLen)] } }, .call)
  | .send f =>
      ({ s with
          receiver := { next (.sent 0) with written := s.receiver.written ++ [f] }
          toSender := s.toSender ++ [f] }, .call)
  | .clock =>
      if state.timely t then ({ s with receiver := next (.time t) }, .call) else (s, .nothing)
  | .recv =>
      match s.toReceiver with
      | [] => (s, .nothing)
      | f :: rest => ({ s with receiver := next (.received f), toReceiver := rest }, .call)

/-- A frame of another participant arrives at both nodes. -/
def Bus.broadcast (s : Bus) (f : CanFrame) : Bus :=
  { s with toSender := s.toSender ++ [f], toReceiver := s.toReceiver ++ [f] }

instance (outCap : Nat) (f : CanFrame) : Decidable (Stray outCap f) :=
  inferInstanceAs (Decidable (_ ∧ _))

def busStep (link : IsotpLink) (s : Bus) : BusAction → Bus × BusEvent
  | .sender t => senderStep link s t
  | .receiver t => receiverStep link s t
  | .foreign f =>
      if f.maskedId ≠ link.t ∧ f.maskedId ≠ link.r then (s.broadcast f, .frame) else (s, .nothing)
  | .stray f =>
      if f.maskedId = link.t ∧ Stray link.outCap f ∧ s.sender.atStart then (s.broadcast f, .frame)
      else (s, .nothing)

def busRun (link : IsotpLink) (schedule : List BusAction) : Bus :=
  run (busStep link) (.start link) schedule

abbrev BusVisit := Visit Bus BusAction BusEvent

def busTrace (link : IsotpLink) (schedule : List BusAction) : List BusVisit :=
  trace (busStep link) (.start link) schedule

end VecuUds
