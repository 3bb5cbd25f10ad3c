import VecuUds.Ecu.State

/-!
# The UDS service handlers

`uds.c` handler by handler, in the source's order of checks. A handler maps the ECU
state and a request to the state it leaves and its `Reply`. The request is the byte
list `req[0..req_len)`; `respCap` is the capacity of the response buffer, which most
handlers ignore. Handlers store their bytes whether or not they fit.

The DID handlers are generic in the table's callbacks.
-/

namespace VecuUds

open Foundation

variable {ρ ω : Type}

/-- `is_extended_session`. -/
def isExtendedSession (s : VecuState ρ ω) : Bool :=
  s.session = udsSessionExtended ∨ s.session = udsSessionProgramming

/-- `h_session_control`. The session is stored before the capacity is checked. -/
def hSessionControl (amb : Ambient) (state : VecuState ρ ω) (req : List UInt8) (respCap : Nat) :
    VecuState ρ ω × Reply :=
  if req.length ≠ 2 then (state, .negative (byteAt req 0) .incorrectMessageLength)
  else
    let subRaw := byteAt req 1
    let sub := subFunction subRaw
    if sub = udsSessionDefault ∨ sub = udsSessionProgramming ∨ sub = udsSessionExtended then
      let state := vecuSetSession amb.now state sub
      if respCap < 6 then (state, .dropped)
      else
        (state,
          .suppressible subRaw [udsPosResp (byteAt req 0), sub, 0x00, 0x32, 0x01, 0xF4] 6)
    else (state, .negative (byteAt req 0) .subFunctionNotSupported)

/-- `h_ecu_reset`: a logical reset of session and security. -/
def hEcuReset (amb : Ambient) (state : VecuState ρ ω) (req : List UInt8) (_respCap : Nat) :
    VecuState ρ ω × Reply :=
  if req.length ≠ 2 then (state, .negative (byteAt req 0) .incorrectMessageLength)
  else
    let subRaw := byteAt req 1
    let sub := subFunction subRaw
    if sub ≠ 0x01 ∧ sub ≠ 0x02 ∧ sub ≠ 0x03 then
      (state, .negative (byteAt req 0) .subFunctionNotSupported)
    else
      let state := vecuSetSession amb.now state udsSessionDefault
      ({ state with security := state.security.reset },
        .suppressible subRaw [udsPosResp (byteAt req 0), sub] 2)

/-- `h_clear_dtc`. Only the group of all codes is supported. -/
def hClearDtc (_amb : Ambient) (state : VecuState ρ ω) (req : List UInt8) (_respCap : Nat) :
    VecuState ρ ω × Reply :=
  if req.length ≠ 4 then (state, .negative (byteAt req 0) .incorrectMessageLength)
  else if ¬ (byteAt req 1 = 0xFF ∧ byteAt req 2 = 0xFF ∧ byteAt req 3 = 0xFF) then
    (state, .negative (byteAt req 0) .requestOutOfRange)
  else
    ({ state with dtcs := dtcMemClearAll state.dtcs },
      .positive [udsPosResp (byteAt req 0)] 1)

/-- The four response bytes of one trouble code. -/
def DtcEntry.encode (e : DtcEntry) : List UInt8 :=
  [((e.dtc >>> 16) &&& 0xFF).toUInt8, ((e.dtc >>> 8) &&& 0xFF).toUInt8,
    (e.dtc &&& 0xFF).toUInt8, e.status]

/-- `h_read_dtc`. Only reportDTCByStatusMask is implemented. -/
def hReadDtc (_amb : Ambient) (state : VecuState ρ ω) (req : List UInt8) (respCap : Nat) :
    VecuState ρ ω × Reply :=
  if req.length < 2 then (state, .negative (byteAt req 0) .incorrectMessageLength)
  else
    let subRaw := byteAt req 1
    let sub := subFunction subRaw
    if sub ≠ 0x02 then (state, .negative (byteAt req 0) .subFunctionNotSupported)
    else if req.length ≠ 3 then (state, .negative (byteAt req 0) .incorrectMessageLength)
    else
      let snap := dtcMemSnapshotByMask state.dtcs (byteAt req 2) dtcMax
      let need := 3 + snap.length * 4
      if respCap < need then (state, .negative (byteAt req 0) .responseTooLong)
      else
        (state,
          .suppressible subRaw
            ([udsPosResp (byteAt req 0), sub, state.dtcs.availabilityMask] ++
              snap.flatMap DtcEntry.encode) need)

/-- The payload of a readable DID, as `h_read_did` collects it in its 256-byte buffer. -/
inductive DidPayload where
  | bytes (payload : List UInt8)
  | refused
  | overflow
  deriving DecidableEq, Repr

/-- The payload part of `h_read_did`: static data first, then the read callback. -/
def didPayload [DidCallbacks ρ ω] (state : VecuState ρ ω) (e : DidEntry ρ ω) : DidPayload :=
  match e.staticData with
  | some data => if e.staticLen > 256 then .overflow else .bytes (data.take e.staticLen)
  | none =>
      match e.read with
      | some fn =>
          match DidCallbacks.read fn state 256 with
          | some payload => .bytes payload
          | none => .refused
      | none => .refused

/-- `h_read_did`. Exactly one DID is accepted. -/
def hReadDid [DidCallbacks ρ ω] (_amb : Ambient) (state : VecuState ρ ω) (req : List UInt8)
    (respCap : Nat) : VecuState ρ ω × Reply :=
  if req.length ≠ 3 then (state, .negative (byteAt req 0) .incorrectMessageLength)
  else
    let did := join16 (byteAt req 1) (byteAt req 2)
    match didTableLookup state.dids did with
    | none => (state, .negative (byteAt req 0) .requestOutOfRange)
    | some e =>
        match didPayload state e with
        | .overflow => (state, .dropped)
        | .refused => (state, .negative (byteAt req 0) .conditionsNotCorrect)
        | .bytes payload =>
            let need := 3 + payload.length
            if respCap < need then (state, .negative (byteAt req 0) .responseTooLong)
            else
              (state,
                .positive
                  ([udsPosResp (byteAt req 0), (did >>> 8).toUInt8, (did &&& 0xFF).toUInt8] ++
                    payload) need)

/-- The requestSeed branch of `h_security_access`. -/
def hRequestSeed (amb : Ambient) (state : VecuState ρ ω) (req : List UInt8) :
    VecuState ρ ω × Reply :=
  if req.length ≠ 2 then (state, .negative (byteAt req 0) .incorrectMessageLength)
  else
    let subRaw := byteAt req 1
    let sub := subFunction subRaw
    let r := securityRequestSeed amb.now amb.entropy state.security sub
    let state := { state with security := r.1 }
    match r.2 with
    | .refused nrc => (state, .negative (byteAt req 0) nrc)
    | .alreadyUnlocked =>
        (state, .suppressible subRaw ([udsPosResp (byteAt req 0), sub] ++ split32 0) 6)
    | .issued seed =>
        (state, .suppressible subRaw ([udsPosResp (byteAt req 0), sub] ++ split32 seed) 6)

/-- The sendKey branch of `h_security_access`: the key is for the level below. -/
def hSendKey (amb : Ambient) (state : VecuState ρ ω) (req : List UInt8) :
    VecuState ρ ω × Reply :=
  if req.length ≠ 6 then (state, .negative (byteAt req 0) .incorrectMessageLength)
  else
    let subRaw := byteAt req 1
    let sub := subFunction subRaw
    let key := join32 (byteAt req 2) (byteAt req 3) (byteAt req 4) (byteAt req 5)
    let r := securitySendKey amb.now amb.later state.security (sub - 1) key
    let state := { state with security := r.1 }
    match r.2 with
    | .error nrc => (state, .negative (byteAt req 0) nrc)
    | .ok () => (state, .suppressible subRaw [udsPosResp (byteAt req 0), sub] 2)

/-- `h_security_access`. Odd sub-functions request a seed, even ones send a key. -/
def hSecurityAccess (amb : Ambient) (state : VecuState ρ ω) (req : List UInt8) (_respCap : Nat) :
    VecuState ρ ω × Reply :=
  if req.length < 2 then (state, .negative (byteAt req 0) .incorrectMessageLength)
  else
    let sub := subFunction (byteAt req 1)
    if ¬ isExtendedSession state then
      (state, .negative (byteAt req 0) .serviceNotSupportedInSession)
    else if sub &&& 0x01 = 0x01 then hRequestSeed amb state req
    else hSendKey amb state req

/-- `h_write_did`: lookup, session gate, security gate, then the write callback. -/
def hWriteDid [DidCallbacks ρ ω] (_amb : Ambient) (state : VecuState ρ ω) (req : List UInt8)
    (_respCap : Nat) : VecuState ρ ω × Reply :=
  if req.length < 4 then (state, .negative (byteAt req 0) .incorrectMessageLength)
  else
    let did := join16 (byteAt req 1) (byteAt req 2)
    match didTableLookup state.dids did with
    | none => (state, .negative (byteAt req 0) .requestOutOfRange)
    | some e =>
        match e.write with
        | none => (state, .negative (byteAt req 0) .requestOutOfRange)
        | some fn =>
            if e.requiresExtendedSession ∧ ¬ isExtendedSession state then
              (state, .negative (byteAt req 0) .serviceNotSupportedInSession)
            else if e.requiresSecurity ∧ ¬ securityIsUnlocked state.security 0x01 then
              (state, .negative (byteAt req 0) .securityAccessDenied)
            else
              let r := DidCallbacks.write fn state (req.drop 3)
              if r.1 ≠ 0 then (r.2, .negative (byteAt req 0) .conditionsNotCorrect)
              else
                (r.2,
                  .positive
                    [udsPosResp (byteAt req 0), (did >>> 8).toUInt8, (did &&& 0xFF).toUInt8] 3)

/-- `h_tester_present`. -/
def hTesterPresent (amb : Ambient) (state : VecuState ρ ω) (req : List UInt8) (_respCap : Nat) :
    VecuState ρ ω × Reply :=
  if req.length ≠ 2 then (state, .negative (byteAt req 0) .incorrectMessageLength)
  else
    let subRaw := byteAt req 1
    let sub := subFunction subRaw
    if sub ≠ 0x00 then (state, .negative (byteAt req 0) .subFunctionNotSupported)
    else
      (vecuMarkTesterPresent amb.now state,
        .suppressible subRaw [udsPosResp (byteAt req 0), sub] 2)

/-- The type of the handlers, `uds_handler_fn`. -/
abbrev UdsHandler (ρ ω : Type) :=
  Ambient → VecuState ρ ω → List UInt8 → Nat → VecuState ρ ω × Reply

/-- The rows of the `DISPATCH` table. -/
def dispatch [DidCallbacks ρ ω] : List (UdsSid × UdsHandler ρ ω) :=
  [(.diagnosticSessionControl, hSessionControl),
    (.ecuReset, hEcuReset),
    (.clearDtc, hClearDtc),
    (.readDtc, hReadDtc),
    (.readDataByIdentifier, hReadDid),
    (.securityAccess, hSecurityAccess),
    (.writeDataByIdentifier, hWriteDid),
    (.testerPresent, hTesterPresent)]

/-- `uds_process_request`. The null-pointer guards have no counterpart here. -/
def udsProcessRequest [DidCallbacks ρ ω] (amb : Ambient) (state : VecuState ρ ω)
    (req : List UInt8) (respCap : Nat) : VecuState ρ ω × Reply :=
  if req.length = 0 ∨ respCap < 3 then (state, .dropped)
  else
    match dispatch.find? (fun row => row.1.code = byteAt req 0) with
    | some row => row.2 amb state req respCap
    | none => (state, .negative (byteAt req 0) .serviceNotSupported)

end VecuUds
