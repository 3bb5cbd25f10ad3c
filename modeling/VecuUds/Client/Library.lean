import VecuUds.Client.Command
import VecuUds.Uds.DtcReport

/-!
# The client library

`diag_tool.py` talks to the ECU through `udsoncan`, which is not part of the repository. The
library is a parameter here: `Udsoncan` lists the calls that the tool makes, and `Documented`
says what the tool relies on. A call sends its request, hands on what a positive answer carries
and raises on a negative one. What the library does with an answer that is neither is left open,
and so is whether it sends a key for the seed of an unlocked ECU.

A request is a step of the ECU. Before each request the other threads of the ECU may act.

`Udsoncan.plain` is a library that does what is documented and no more.
-/

namespace VecuUds

open Foundation

/-- What a command of the tool raises. `valueError` is raised before anything is sent. -/
inductive ClientException where
  | negativeResponse (nrc : UInt8)
  | timeout
  | unexpectedResponse
  | valueError
  deriving DecidableEq, Repr

/-- A command of the tool, with the ECU it leaves. -/
abbrev Client (α : Type) := EStateM ClientException EcuState α

namespace Client

/-- Steps of the ECU that the command has no part in. -/
def others (steps : List ServerInput) : Client Unit := fun s => .ok () (run serverStep s steps)

/-- A request, and the bytes that come back. A suppressed or missing response is a timeout. -/
def exchange (amb : Ambient) (req : List UInt8) : Client (List UInt8) := fun s =>
  let r := serverStep s ⟨.request req, amb⟩
  match r.2 with
  | some reply => if reply.rc = 0 then .ok reply.resp r.1 else .error .timeout r.1
  | none => .error .timeout r.1

/-- A conversion that raises where it has no value. -/
def value {α : Type} (v : Option α) : Client α :=
  match v with
  | some a => return a
  | none => throw .valueError

/-- A call of the library that sends this request. A positive answer that reads as a value
returns it, and a negative one raises. -/
structure Asks {α : Type} (c : Client α) (amb : Ambient) (req : List UInt8)
    (reads : List UInt8 → α → Prop) : Prop where
  positive : ∀ {s s' : EcuState} {reply : Reply} {a : α},
    serverStep s ⟨.request req, amb⟩ = (s', some reply) → reply.rc = 0 →
      byteAt reply.resp 0 = udsPosResp (byteAt req 0) → reads reply.resp a → c.run s = .ok a s'
  negative : ∀ {s s' : EcuState} {sid : UInt8} {nrc : UdsNrc},
    serverStep s ⟨.request req, amb⟩ = (s', some (.negative sid nrc)) → byteAt req 0 = sid →
      c.run s = .error (.negativeResponse nrc.code) s'

section Sequencing

variable {s s' : EcuState} {α β : Type} {c : Client α} {k : α → Client β}

/-- A command goes on after a first part that ends without an exception. -/
theorem bind_ok {a : α} (first : c.run s = .ok a s') : (c >>= k).run s = (k a).run s' := by
  rw [EStateM.run_bind, first]

theorem bind_error {e : ClientException} (first : c.run s = .error e s') :
    (c >>= k).run s = .error e s' := by
  rw [EStateM.run_bind, first]

theorem others_run (steps : List ServerInput) (s : EcuState) :
    (others steps).run s = .ok () (run serverStep s steps) := rfl

theorem exchange_run {amb : Ambient} {req : List UInt8} {reply : Reply}
    (step : serverStep s ⟨.request req, amb⟩ = (s', some reply)) :
    (exchange amb req).run s =
      if reply.rc = 0 then .ok reply.resp s' else .error .timeout s' := by
  simp only [EStateM.run, exchange, step]

end Sequencing

end Client

/-! ## Codecs -/

/-- `str.encode("ascii")`. -/
def asciiEncode (val : String) : Option (List UInt8) :=
  if val.toList.all fun c => c.toNat < 128 then
    some (val.toList.map fun c => UInt8.ofNat c.toNat)
  else none

/-- `bytes.decode("ascii", errors="replace")`. -/
def asciiDecode (payload : List UInt8) : String :=
  .ofList (payload.map fun b => if b < 128 then Char.ofNat b.toNat else Char.ofNat 0xFFFD)

/-- A text that is encoded is decoded to itself. -/
theorem asciiDecode_asciiEncode {text : String} {data : List UInt8}
    (encoded : asciiEncode text = some data) : asciiDecode data = text := by
  simp only [asciiEncode] at encoded
  split_ifs at encoded with small
  have ascii : ∀ c ∈ text.toList, c.toNat < 128 := by simpa using small
  obtain rfl := Option.some.inj encoded
  have back : ∀ c ∈ text.toList,
      ((fun b : UInt8 => if b < 128 then Char.ofNat b.toNat else Char.ofNat 0xFFFD) ∘
        fun c => UInt8.ofNat c.toNat) c = id c := by
    intro c member
    have byte : (UInt8.ofNat c.toNat).toNat = c.toNat := by
      rw [UInt8.toNat_ofNat']
      exact Nat.mod_eq_of_lt (by have := ascii c member; omega)
    have low : UInt8.ofNat c.toNat < 128 := by
      rw [UInt8.lt_iff_toNat_lt, byte]
      exact ascii c member
    simp only [Function.comp_apply, if_pos low, byte, Char.ofNat_toNat, id_eq]
  rw [asciiDecode, List.map_map, List.map_congr_left back, List.map_id, String.ofList_toList]

/-- The lengths of the codecs in `DIDS`. -/
def didCodecLen (did : UInt16) : Option Nat :=
  if did = 0xF190 then some 17
  else if did = 0xF18C then some 12
  else if did = 0xF187 then some 8
  else if did = 0x010C then some 2
  else if did = 0x010D then some 1
  else if did = 0x0105 then some 1
  else if did = 0xF200 then some 32
  else none

/-- An identifier in a request or an answer. -/
def didBytes (did : UInt16) : List UInt8 := [(did >>> 8).toUInt8, (did &&& 0xFF).toUInt8]

/-! ## Calls -/

/-- The calls of the library that the tool makes. Where the library asks more than once, the
call meets a window of other steps. A payload is handed on as the bytes that the codec of its
identifier gets, and `decodeAscii` is the codec of the library for text. -/
structure Udsoncan where
  changeSession (amb : Ambient) (session : UInt8) : Client Unit
  requestSeed (amb : Ambient) (level : UInt8) : Client (List UInt8)
  sendKey (amb : Ambient) (level : UInt8) (key : List UInt8) : Client Unit
  skipsZeroSeed : Bool
  unlockSecurityAccess (w : UnlockWindow) (level : UInt8) : Client Unit
  readDataByIdentifier (amb : Ambient) (did : UInt16) : Client (List UInt8)
  writeDataByIdentifier (amb : Ambient) (did : UInt16) (data : List UInt8) : Client Unit
  getDtcByStatusMask (amb : Ambient) (mask : UInt8) : Client (List TroubleCode)
  clearDtc (amb : Ambient) (group : UInt32) : Client Unit
  decodeAscii (payload : List UInt8) : Option String

/-- The seed of an ECU that is unlocked already. -/
def allZero (seed : List UInt8) : Bool := seed.all fun b => b = 0

namespace Udsoncan

variable (lib : Udsoncan)

/-- The second half of an unlocking: the key for a seed. -/
def answerSeed (w : UnlockWindow) (level : UInt8) (seed : List UInt8) : Client Unit := do
  let key ← Client.value (securityAlgo level.toNat seed)
  Client.others w.beforeKey
  lib.sendKey w.key level key

/-- An unlocking asks for a seed and answers it with the key of `security_algo`. -/
def seedAndKey (w : UnlockWindow) (level : UInt8) : Client Unit := do
  Client.others w.beforeSeed
  let seed ← lib.requestSeed w.seed level
  if lib.skipsZeroSeed ∧ allZero seed then return () else lib.answerSeed w level seed

/-- What the documentation of the library promises. The codes of a DTC report follow its
availability mask, and a code of all zeros is left out. -/
structure Documented : Prop where
  changeSession (amb : Ambient) (session : UInt8) :
    (lib.changeSession amb session).Asks amb [0x10, session] fun raw _ =>
      raw.length = 6 ∧ byteAt raw 1 = session
  requestSeed (amb : Ambient) :
    (lib.requestSeed amb 0x01).Asks amb [0x27, 0x01] fun raw seed =>
      byteAt raw 1 = 0x01 ∧ seed = raw.drop 2
  sendKey (amb : Ambient) (key : List UInt8) :
    (lib.sendKey amb 0x01 key).Asks amb ([0x27, 0x02] ++ key) fun raw _ => byteAt raw 1 = 0x02
  unlockSecurityAccess (w : UnlockWindow) (level : UInt8) :
    lib.unlockSecurityAccess w level = lib.seedAndKey w level
  readDataByIdentifier (amb : Ambient) {did : UInt16} {len : Nat}
    (known : didCodecLen did = some len) :
    (lib.readDataByIdentifier amb did).Asks amb (0x22 :: didBytes did) fun raw data =>
      raw.drop 1 = didBytes did ++ data ∧ data.length = len
  incomplete (amb : Ambient) {did : UInt16} {len : Nat} (known : didCodecLen did = some len)
    {s s' : EcuState} {reply : Reply} {data : List UInt8}
    (step : serverStep s ⟨.request (0x22 :: didBytes did), amb⟩ = (s', some reply))
    (sent : reply.rc = 0) (shape : reply.resp = 0x62 :: (didBytes did ++ data))
    (short : data.length < len) :
    (lib.readDataByIdentifier amb did).run s = .error .unexpectedResponse s'
  writeDataByIdentifier (amb : Ambient) (did : UInt16) (data : List UInt8) :
    (lib.writeDataByIdentifier amb did data).Asks amb (0x2E :: (didBytes did ++ data))
      fun raw _ => raw.drop 1 = didBytes did
  getDtcByStatusMask (amb : Ambient) (mask : UInt8) :
    (lib.getDtcByStatusMask amb mask).Asks amb [0x19, 0x02, mask] fun raw codes =>
      byteAt raw 1 = 0x02 ∧ ∃ all, raw.drop 3 = dtcFormat.encodeAll all ∧
        codes = all.filter fun c => c.code ≠ 0
  clearDtc (amb : Ambient) (group : UInt32) :
    (lib.clearDtc amb group).Asks amb (0x14 :: (split32 group).drop 1) fun _ _ => True
  decodeAscii {text : String} {payload : List UInt8} (encoded : asciiEncode text = some payload) :
    lib.decodeAscii payload = some text

end Udsoncan

/-! ## A library that does no more -/

/-- A request, and what is read from a positive answer. -/
def Client.ask {α : Type} (amb : Ambient) (req : List UInt8) (read : List UInt8 → Option α) :
    Client α := do
  let raw ← exchange amb req
  if byteAt raw 0 = udsPosResp (byteAt req 0) then
    match read raw with
    | some a => return a
    | none => throw .unexpectedResponse
  else if byteAt raw 0 = udsNegativeResponse then throw (.negativeResponse (byteAt raw 2))
  else throw .unexpectedResponse

section Ask

variable {α : Type} {amb : Ambient} {req : List UInt8} {read : List UInt8 → Option α}

theorem Client.ask_positive {s s' : EcuState} {reply : Reply}
    (step : serverStep s ⟨.request req, amb⟩ = (s', some reply)) (sent : reply.rc = 0)
    (positive : byteAt reply.resp 0 = udsPosResp (byteAt req 0)) :
    (ask amb req read).run s = match read reply.resp with
      | some a => .ok a s'
      | none => .error .unexpectedResponse s' := by
  simp only [ask, EStateM.run_bind, exchange_run step, if_pos sent, if_pos positive]
  cases read reply.resp <;> rfl

/-- A request of a known service asks, for every reading that its own one agrees with. -/
theorem Client.ask_asks {reads : List UInt8 → α → Prop} (sid : UInt8) (own : byteAt req 0 = sid)
    (known : udsPosResp sid ≠ 0x7F) (agrees : ∀ raw a, reads raw a → read raw = some a) :
    (ask amb req read).Asks amb req reads where
  positive := by
    intro s s' reply a step sent positive reading
    rw [ask_positive step sent positive, agrees _ _ reading]
  negative := by
    intro s s' refused nrc step _
    have sent : (Reply.negative refused nrc).rc = 0 := rfl
    have other : ¬ byteAt (Reply.negative refused nrc).resp 0 = udsPosResp (byteAt req 0) := by
      rw [own]
      exact known.symm
    have negative : byteAt (Reply.negative refused nrc).resp 0 = udsNegativeResponse := rfl
    simp only [ask, EStateM.run_bind, exchange_run step, if_pos sent, if_neg other,
      if_pos negative]
    rfl

end Ask

namespace Udsoncan

/-- The payload of an answer that echoes the identifier and has the length of its codec. -/
def readPayload (did : UInt16) (len : Nat) (raw : List UInt8) : Option (List UInt8) :=
  if raw.drop 1 = didBytes did ++ raw.drop 3 ∧ raw.length = 3 + len then some (raw.drop 3) else none

/-- The codes of a DTC report. -/
def readCodes (raw : List UInt8) : Option (List TroubleCode) :=
  if byteAt raw 1 = 0x02 then
    (dtcFormat.decodeAll ((raw.length - 3) / 4) (raw.drop 3)).map fun codes =>
      codes.filter fun c => c.code ≠ 0
  else none

/-- A library that checks its answers and returns what they carry. -/
def plain (skips : Bool) : Udsoncan :=
  let asking : Udsoncan :=
    { changeSession := fun amb session => .ask amb [0x10, session] fun raw =>
        if raw.length = 6 ∧ byteAt raw 1 = session then some () else none
      requestSeed := fun amb level => .ask amb [0x27, level] fun raw =>
        if byteAt raw 1 = level then some (raw.drop 2) else none
      sendKey := fun amb level key => .ask amb ([0x27, level + 1] ++ key) fun raw =>
        if byteAt raw 1 = level + 1 then some () else none
      skipsZeroSeed := skips
      unlockSecurityAccess := fun _ _ => return ()
      readDataByIdentifier := fun amb did =>
        match didCodecLen did with
        | some len => .ask amb (0x22 :: didBytes did) (readPayload did len)
        | none => throw .valueError
      writeDataByIdentifier := fun amb did data =>
        .ask amb (0x2E :: (didBytes did ++ data)) fun raw =>
          if raw.drop 1 = didBytes did then some () else none
      getDtcByStatusMask := fun amb mask => .ask amb [0x19, 0x02, mask] readCodes
      clearDtc := fun amb group => .ask amb (0x14 :: (split32 group).drop 1) fun _ => some ()
      decodeAscii := fun payload =>
        if payload.all fun b => b < 128 then some (asciiDecode payload) else none }
  { asking with unlockSecurityAccess := asking.seedAndKey }

theorem plain_readDataByIdentifier (skips : Bool) (amb : Ambient) {did : UInt16} {len : Nat}
    (known : didCodecLen did = some len) :
    (plain skips).readDataByIdentifier amb did =
      .ask amb (0x22 :: didBytes did) (readPayload did len) := by
  simp only [plain, known]

theorem readPayload_of_echo {did : UInt16} {len : Nat} {raw data : List UInt8}
    (echo : raw.drop 1 = didBytes did ++ data) (length : data.length = len) :
    readPayload did len raw = some data := by
  have rest : raw.drop 3 = data := by
    rw [← List.drop_drop (i := 2) (j := 1), echo]
    rfl
  have size : raw.length = 3 + len := by
    have both := congrArg List.length echo
    rw [List.length_drop, List.length_append, length] at both
    have two : (didBytes did).length = 2 := rfl
    omega
  rw [readPayload, rest, if_pos ⟨echo, size⟩]

theorem readCodes_of_report {raw : List UInt8} {all : List TroubleCode}
    (echo : byteAt raw 1 = 0x02) (report : raw.drop 3 = dtcFormat.encodeAll all) :
    readCodes raw = some (all.filter fun c => c.code ≠ 0) := by
  have records : (raw.length - 3) / 4 = all.length := by
    have size : (dtcFormat.encodeAll all).length = 4 * all.length := dtcFormat.length_encodeAll _
    rw [← List.length_drop, report, size]
    omega
  rw [readCodes, if_pos echo, records, report, dtcFormat.decodeAll_encodeAll]
  rfl

theorem ascii_of_asciiEncode {text : String} {payload : List UInt8}
    (encoded : asciiEncode text = some payload) : payload.all (fun b => b < 128) = true := by
  simp only [asciiEncode] at encoded
  split_ifs at encoded with small
  obtain rfl := Option.some.inj encoded
  simp only [List.all_map, List.all_eq_true, Function.comp_apply, decide_eq_true_eq] at small ⊢
  intro c member
  have low := small c member
  rw [UInt8.lt_iff_toNat_lt, UInt8.toNat_ofNat', Nat.mod_eq_of_lt (by omega)]
  exact low

theorem plain_documented (skips : Bool) : (plain skips).Documented where
  changeSession _ _ := Client.ask_asks 0x10 rfl (by decide) fun _ _ reads => if_pos reads
  requestSeed _ := Client.ask_asks 0x27 rfl (by decide) fun _ _ reads => by
    rw [if_pos reads.1, reads.2]
  sendKey _ _ := Client.ask_asks 0x27 rfl (by decide) fun _ _ echo => if_pos echo
  unlockSecurityAccess _ _ := rfl
  readDataByIdentifier amb did len known := by
    rw [plain_readDataByIdentifier skips amb known]
    exact Client.ask_asks 0x22 rfl (by decide) fun _ _ reads => readPayload_of_echo reads.1 reads.2
  incomplete amb did len known s s' reply data step sent shape short := by
    have size : ¬ reply.resp.length = 3 + len := by
      have two : (didBytes did).length = 2 := rfl
      rw [shape, List.length_cons, List.length_append, two]
      omega
    have positive : byteAt reply.resp 0 = udsPosResp (byteAt (0x22 :: didBytes did) 0) := by
      rw [shape]
      rfl
    rw [plain_readDataByIdentifier skips amb known, Client.ask_positive step sent positive,
      readPayload, if_neg fun both => size both.2]
  writeDataByIdentifier _ _ _ := Client.ask_asks 0x2E rfl (by decide) fun _ _ echo => if_pos echo
  getDtcByStatusMask _ _ := by
    refine Client.ask_asks 0x19 rfl (by decide) ?_
    rintro raw codes ⟨echo, all, report, rfl⟩
    exact readCodes_of_report echo report
  clearDtc amb group := by
    change (Client.ask amb (0x14 :: (split32 group).drop 1) fun _ => some ()).Asks amb _ _
    exact Client.ask_asks 0x14 rfl (by decide) fun _ _ _ => rfl
  decodeAscii encoded := by
    simp only [plain, if_pos (ascii_of_asciiEncode encoded), asciiDecode_asciiEncode encoded]

end Udsoncan

end VecuUds
