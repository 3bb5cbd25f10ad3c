import VecuUds.Foundation.Bytes

/-!
# ISO-TP over a CAN socket

`isotp_send` and `isotp_recv` as processes: a state says which call the function makes
next (read a frame, write a frame, read the clock) and with which local variables, and
resumes with the answer of that call. Any answers can be fed in, so interruptions,
errors, foreign frames and late clock readings are all inputs of the model.

`Isotp.Segmentation` has the frames that a message is cut into, `Isotp.Bus` connects two
processes.
-/

namespace VecuUds

open Foundation

/-! ## Frames -/

/-- `struct can_frame`: the eight data bytes are there whatever the length code says. -/
structure CanFrame where
  canId : UInt32
  canDlc : UInt8
  data : List UInt8
  size : data.length = 8
  deriving DecidableEq

/-- `CAN_SFF_MASK`. -/
def canSffMask : UInt32 := 0x7FF

def CanFrame.maskedId (f : CanFrame) : UInt32 := f.canId &&& canSffMask

/-- The data byte at index `i`. -/
def CanFrame.byte (f : CanFrame) (i : Nat) : UInt8 := byteAt f.data i

/-- `PCI_TYPE` of the first byte. -/
def CanFrame.pci (f : CanFrame) : UInt8 := f.byte 0 >>> 4

/-- The low nibble of the first byte. -/
def CanFrame.nibble (f : CanFrame) : UInt8 := f.byte 0 &&& 0x0F

def pciSf : UInt8 := 0x0

def pciFf : UInt8 := 0x1

def pciCf : UInt8 := 0x2

def pciFc : UInt8 := 0x3

def fcFsCts : UInt8 := 0x0

def fcFsWait : UInt8 := 0x1

def isotpMaxPayload : Nat := 4095

def isotpPadding : UInt8 := 0x00

def isotpNCrMs : UInt64 := 1000

/-- A frame as the senders build it: zeroed, written from the front, padded to eight
bytes. -/
def CanFrame.padded (id : UInt32) (bytes : List UInt8) : CanFrame where
  canId := id &&& canSffMask
  canDlc := 8
  data := (bytes ++ List.replicate 8 isotpPadding).take 8
  size := by simp

/-- The frame of `send_sf`. -/
def sfFrame (txId : UInt32) (data : List UInt8) : CanFrame :=
  .padded txId ((data.length.toUInt8 &&& 0x0F) :: data)

/-- The first frame of `send_multiframe`. -/
def ffFrame (txId : UInt32) (data : List UInt8) : CanFrame :=
  .padded txId
    (((0x10 : UInt8) ||| ((data.length >>> 8).toUInt8 &&& 0x0F)) :: data.length.toUInt8 ::
      data.take 6)

/-- A consecutive frame of `send_multiframe`. -/
def cfFrame (txId : UInt32) (sn : UInt8) (chunk : List UInt8) : CanFrame :=
  .padded txId (((0x20 : UInt8) ||| (sn &&& 0x0F)) :: chunk)

/-- The frame of `send_fc_cts`. -/
def fcFrame (txId : UInt32) : CanFrame := .padded txId [(0x30 : UInt8) ||| fcFsCts, 0x00, 0x00]

/-- `isotp_addr_t`. -/
structure IsotpAddr where
  rxId : UInt32
  txId : UInt32

/-! ## Calls -/

/-- The calls that leave the protocol code, and its return. -/
inductive IoCall where
  | recv
  | send (f : CanFrame)
  | clock
  | ret (rc : Int)

/-- Their answers: `can_io_recv` delivers a frame, is interrupted or fails, `can_io_send`
returns its code, `now_ms` a reading. -/
inductive IoAnswer where
  | received (f : CanFrame)
  | interrupted
  | failed
  | sent (rc : Int)
  | time (t : UInt64)

/-! ## Sending -/

/-- Where `isotp_send` stands. `offset` and `sn` are the variables of the loop over
consecutive frames, `deadline` the one of `wait_for_fc`. -/
inductive SendState where
  | sf (data : List UInt8)
  | ff (data : List UInt8)
  | fcEnter (data : List UInt8)
  | fcWait (data : List UInt8) (deadline : UInt64)
  | fcForeign (data : List UInt8) (deadline : UInt64)
  | cf (data : List UInt8) (offset : Nat) (sn : UInt8)
  | done (rc : Int)
  deriving DecidableEq

/-- The length of the next consecutive frame's chunk. -/
def sendChunk (data : List UInt8) (offset : Nat) : Nat :=
  if data.length - offset > 7 then 7 else data.length - offset

/-- The head of the loop over consecutive frames. -/
def sendLoop (data : List UInt8) (offset : Nat) (sn : UInt8) : SendState :=
  if offset < data.length then .cf data offset sn else .done 0

/-- The entry of `isotp_send`. -/
def isotpSend (data : List UInt8) : SendState :=
  if data.length = 0 ∨ data.length > isotpMaxPayload then .done (-1)
  else if data.length ≤ 7 then .sf data
  else .ff data

def sendCall (addr : IsotpAddr) : SendState → IoCall
  | .sf data => .send (sfFrame addr.txId data)
  | .ff data => .send (ffFrame addr.txId data)
  | .fcEnter _ => .clock
  | .fcWait _ _ => .recv
  | .fcForeign _ _ => .clock
  | .cf data offset sn =>
      .send (cfFrame addr.txId sn ((data.drop offset).take (sendChunk data offset)))
  | .done rc => .ret rc

/-- What `wait_for_fc` does with a frame. -/
def sendFlow (addr : IsotpAddr) (data : List UInt8) (deadline : UInt64) (f : CanFrame) :
    SendState :=
  if f.maskedId ≠ addr.rxId then .fcForeign data deadline
  else if f.pci ≠ pciFc then .done (-1)
  else if f.nibble = fcFsCts then sendLoop data 6 1
  else if f.nibble = fcFsWait then .fcWait data deadline
  else .done (-1)

def sendResume (addr : IsotpAddr) : SendState → IoAnswer → SendState
  | .sf _, .sent rc => .done rc
  | .ff data, .sent rc => if rc ≠ 0 then .done (-1) else .fcEnter data
  | .fcEnter data, .time t => .fcWait data (t + isotpNCrMs)
  | .fcWait data deadline, .received f => sendFlow addr data deadline f
  | .fcWait data deadline, .interrupted => .fcWait data deadline
  | .fcWait _ _, .failed => .done (-1)
  | .fcForeign data deadline, .time t => if t > deadline then .done (-1) else .fcWait data deadline
  | .cf data offset sn, .sent rc =>
      if rc ≠ 0 then .done (-1)
      else sendLoop data (offset + sendChunk data offset) ((sn + 1) &&& 0x0F)
  | s, _ => s

/-! ## Receiving -/

/-- The variables of `isotp_recv`, with the caller's buffer and length. -/
structure RecvVars where
  out : List UInt8
  outLen : Nat
  receiving : Bool
  totalLen : Nat
  got : Nat
  nextSn : UInt8
  deadline : UInt64

/-- Where `isotp_recv` stands: at the read, at the write of a flow control, at one of
the three clock readings, or at its return. -/
inductive RecvState where
  | loop (v : RecvVars)
  | sendFc (v : RecvVars)
  | armFf (v : RecvVars)
  | check (v : RecvVars) (f : CanFrame)
  | armCf (v : RecvVars)
  | done (v : RecvVars) (rc : Int)

/-- The entry of `isotp_recv`, with what the caller's variables hold. -/
def isotpRecv (out : List UInt8) (outLen : Nat) : RecvState :=
  .loop ⟨out, outLen, false, 0, 0, 1, 0⟩

def recvCall (addr : IsotpAddr) : RecvState → IoCall
  | .loop _ => .recv
  | .sendFc _ => .send (fcFrame addr.txId)
  | .armFf _ => .clock
  | .check _ _ => .clock
  | .armCf _ => .clock
  | .done _ rc => .ret rc

/-- The twelve-bit length of a first frame. -/
def CanFrame.ffLength (f : CanFrame) : Nat := (f.nibble.toNat <<< 8) ||| (f.byte 1).toNat

/-- A frame with the receiver's id while no reassembly is open. -/
def recvIdle (outCap : Nat) (v : RecvVars) (f : CanFrame) : RecvState :=
  if f.pci = pciSf then
    let len := f.nibble.toNat
    if len = 0 ∨ len > 7 ∨ len > outCap then .loop v
    else .done { v with out := overwrite v.out 0 ((f.data.drop 1).take len), outLen := len } 0
  else if f.pci = pciFf then
    let v := { v with totalLen := f.ffLength }
    if v.totalLen < 8 ∨ v.totalLen > isotpMaxPayload ∨ v.totalLen > outCap then .loop v
    else
      .sendFc { v with
        out := overwrite v.out 0 ((f.data.drop 2).take 6)
        got := 6
        nextSn := 1
        receiving := true }
  else .loop v

/-- A frame with the receiver's id during a reassembly, past the deadline check. -/
def recvReceiving (v : RecvVars) (f : CanFrame) : RecvState :=
  if f.pci ≠ pciCf then .loop { v with receiving := false }
  else if f.nibble ≠ v.nextSn then .done v (-1)
  else
    let remaining := v.totalLen - v.got
    let chunk := if remaining > 7 then 7 else remaining
    .armCf { v with
      out := overwrite v.out v.got ((f.data.drop 1).take chunk)
      got := v.got + chunk
      nextSn := (v.nextSn + 1) &&& 0x0F }

def recvResume (addr : IsotpAddr) (outCap : Nat) : RecvState → IoAnswer → RecvState
  | .loop v, .interrupted => .done v 1
  | .loop v, .failed => .done v (-1)
  | .loop v, .received f =>
      if f.maskedId ≠ addr.rxId then .loop v
      else if v.receiving then .check v f
      else recvIdle outCap v f
  | .sendFc v, .sent rc => if rc ≠ 0 then .done v (-1) else .armFf v
  | .armFf v, .time t => .loop { v with deadline := t + isotpNCrMs }
  | .check v f, .time t => if t > v.deadline then .done v (-1) else recvReceiving v f
  | .armCf v, .time t =>
      let v := { v with deadline := t + isotpNCrMs }
      if v.got ≥ v.totalLen then .done { v with outLen := v.totalLen } 0 else .loop v
  | s, _ => s

end VecuUds
