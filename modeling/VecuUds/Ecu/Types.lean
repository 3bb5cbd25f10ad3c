import VecuUds.Foundation.Bytes

/-!
# UDS vocabulary

The services, sessions and negative response codes of `uds_types.h` that the program
uses, with their wire bytes. Sessions stay plain bytes, as `vecu_state_t` stores them;
services and response codes are enumerations.

`Reply` is what one call of a handler leaves behind for its caller: the return code,
the bytes it stored at `resp[0]`, `resp[1]`, and so on, and the value it assigned to
`*resp_len`, if it assigned one. Every handler of the source fills `resp` from index
zero upwards, so the stored bytes form a list. Whether the assigned length agrees with
the stored bytes is not built in; it is proved of the handlers.
-/

namespace VecuUds

open Foundation

/-- `UDS_MAX_MSG_LEN`: the size of every request and response buffer. -/
def udsMaxMsgLen : Nat := 4095

/-- The services of the dispatch table. -/
inductive UdsSid where
  | diagnosticSessionControl
  | ecuReset
  | clearDtc
  | readDtc
  | readDataByIdentifier
  | securityAccess
  | writeDataByIdentifier
  | testerPresent
  deriving DecidableEq, Repr

def UdsSid.code : UdsSid → UInt8
  | .diagnosticSessionControl => 0x10
  | .ecuReset => 0x11
  | .clearDtc => 0x14
  | .readDtc => 0x19
  | .readDataByIdentifier => 0x22
  | .securityAccess => 0x27
  | .writeDataByIdentifier => 0x2E
  | .testerPresent => 0x3E

/-- `UDS_NEGATIVE_RESPONSE`. -/
def udsNegativeResponse : UInt8 := 0x7F

def udsSessionDefault : UInt8 := 0x01
def udsSessionProgramming : UInt8 := 0x02
def udsSessionExtended : UInt8 := 0x03

/-- The negative response codes that some path of the program produces. -/
inductive UdsNrc where
  | serviceNotSupported
  | subFunctionNotSupported
  | incorrectMessageLength
  | responseTooLong
  | conditionsNotCorrect
  | requestSequenceError
  | requestOutOfRange
  | securityAccessDenied
  | invalidKey
  | exceededNumberOfAttempts
  | requiredTimeDelayNotExpired
  | serviceNotSupportedInSession
  deriving DecidableEq, Repr

def UdsNrc.code : UdsNrc → UInt8
  | .serviceNotSupported => 0x11
  | .subFunctionNotSupported => 0x12
  | .incorrectMessageLength => 0x13
  | .responseTooLong => 0x14
  | .conditionsNotCorrect => 0x22
  | .requestSequenceError => 0x24
  | .requestOutOfRange => 0x31
  | .securityAccessDenied => 0x33
  | .invalidKey => 0x35
  | .exceededNumberOfAttempts => 0x36
  | .requiredTimeDelayNotExpired => 0x37
  | .serviceNotSupportedInSession => 0x7F

/-- Different response codes have different bytes. -/
theorem UdsNrc.code_inj {nrc other : UdsNrc} (same : nrc.code = other.code) : nrc = other := by
  revert same
  cases nrc <;> cases other <;> decide

/-- `UDS_POS_RESP`. -/
def udsPosResp (sid : UInt8) : UInt8 := sid + 0x40

/-- `UDS_SUPPRESS_POS_RESP_BIT`. -/
def udsSuppressPosRespBit : UInt8 := 0x80

/-- The sub-function without its suppress bit. -/
def subFunction (subRaw : UInt8) : UInt8 := subRaw &&& ~~~udsSuppressPosRespBit

/-- The outcome of one handler call, as its caller can observe it. -/
structure Reply where
  rc : Int
  resp : List UInt8
  respLen : Option Nat
  deriving DecidableEq, Repr

/-- `build_nrc`: three bytes at the start of the response buffer. -/
def buildNrc (sid : UInt8) (nrc : UdsNrc) : List UInt8 := [udsNegativeResponse, sid, nrc.code]

namespace Reply

/-- A negative response is always transmitted. -/
def negative (sid : UInt8) (nrc : UdsNrc) : Reply := ⟨0, buildNrc sid nrc, some 3⟩

/-- A positive response of a service without sub-function. -/
def positive (bytes : List UInt8) (len : Nat) : Reply := ⟨0, bytes, some len⟩

/-- A positive response that the suppress bit of the sub-function byte withholds
from transmission. The bytes are stored in either case. -/
def suppressible (subRaw : UInt8) (bytes : List UInt8) (len : Nat) : Reply :=
  ⟨if subRaw &&& udsSuppressPosRespBit ≠ 0 then 1 else 0, bytes, some len⟩

/-- An exit with `-1`: neither the response buffer nor its length is touched. -/
def dropped : Reply := ⟨-1, [], none⟩

end Reply

/-- What one step of the program draws from its surroundings. A step reads the
monotonic clock at most twice, so two readings suffice; `entropy` is `none` when
`getrandom` does not deliver four bytes; `wave` stands for the two floating-point
sinusoids of the engine simulator, as functions of its tick counter. -/
structure Ambient where
  now : UInt64
  later : UInt64
  entropy : Option UInt32
  wave : UInt32 → UInt16 × UInt8

private theorem bits_one : ∀ x : BitVec 8, x &&& 0x7F = 1 → x = 0x01 ∨ x = 0x81 := by decide

private theorem bits_two : ∀ x : BitVec 8, x &&& 0x7F = 2 → x = 0x02 ∨ x = 0x82 := by decide

/-- Only two raw bytes carry the sub-function `01`. -/
theorem subFunction_eq_one {raw : UInt8} (h : subFunction raw = 0x01) :
    raw = 0x01 ∨ raw = 0x81 := by
  have cases := bits_one raw.toBitVec (congrArg UInt8.toBitVec h)
  exact cases.imp UInt8.toBitVec_inj.mp UInt8.toBitVec_inj.mp

/-- Only two raw bytes carry the sub-function `02`. -/
theorem subFunction_eq_two {raw : UInt8} (h : subFunction raw = 0x02) :
    raw = 0x02 ∨ raw = 0x82 := by
  have cases := bits_two raw.toBitVec (congrArg UInt8.toBitVec h)
  exact cases.imp UInt8.toBitVec_inj.mp UInt8.toBitVec_inj.mp

end VecuUds
