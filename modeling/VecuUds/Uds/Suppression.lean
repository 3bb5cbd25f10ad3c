import VecuUds.Uds.Effect

/-!
# The suppress bit

Five services carry a sub-function byte, and each handler masks its highest bit by hand.
The comparison is between two calls on the same state: one with the bit off and one with
it on. `Suppressed` says how their replies may differ, and each handler is shown to keep
to it, for every state, every response capacity and every choice of DID callbacks.
-/

namespace VecuUds

open Foundation

/-- The request with the suppress bit of its second byte set. -/
def withSuppressBit (req : List UInt8) : List UInt8 :=
  req.set 1 (byteAt req 1 ||| udsSuppressPosRespBit)

/-- The services whose second request byte is a sub-function. -/
def HasSubFunction (sid : UInt8) : Prop :=
  sid = 0x10 ∨ sid = 0x11 ∨ sid = 0x19 ∨ sid = 0x27 ∨ sid = 0x3E

/-- How a reply with the suppress bit off compares with the one with the bit on: a
positive response is withheld, everything else is the same. -/
inductive Suppressed (sid : UInt8) : Reply → Reply → Prop where
  | positive (bytes : List UInt8) (len : Nat) :
      Suppressed sid ⟨0, udsPosResp sid :: bytes, some len⟩ ⟨1, udsPosResp sid :: bytes, some len⟩
  | negative (nrc : UdsNrc) : Suppressed sid (.negative sid nrc) (.negative sid nrc)
  | dropped : Suppressed sid .dropped .dropped

/-! ## The masked byte -/

private theorem or_and_not : ∀ x : BitVec 8, (x ||| 0x80) &&& 0x7F = x &&& 0x7F := by decide

private theorem or_and_bit : ∀ x : BitVec 8, (x ||| 0x80) &&& 0x80 = 0x80 := by decide

/-- The mask removes the bit again. -/
theorem subFunction_or_suppress (raw : UInt8) :
    subFunction (raw ||| udsSuppressPosRespBit) = subFunction raw :=
  UInt8.toBitVec_inj.mp (or_and_not raw.toBitVec)

/-- Two requests that differ in the suppress bit alone, off in the first. -/
structure Marked (req req' : List UInt8) : Prop where
  length : req'.length = req.length
  sid : byteAt req' 0 = byteAt req 0
  sub : subFunction (byteAt req' 1) = subFunction (byteAt req 1)
  rest (i : Nat) : byteAt req' (i + 2) = byteAt req (i + 2)
  off : byteAt req 1 &&& udsSuppressPosRespBit = 0
  on : byteAt req' 1 &&& udsSuppressPosRespBit ≠ 0

theorem marked_withSuppressBit {req : List UInt8} (long : 2 ≤ req.length)
    (off : byteAt req 1 &&& udsSuppressPosRespBit = 0) : Marked req (withSuppressBit req) := by
  match req, long with
  | sid :: raw :: rest, _ =>
      refine ⟨rfl, rfl, subFunction_or_suppress raw, fun i => rfl, off, ?_⟩
      have set : (raw ||| udsSuppressPosRespBit) &&& udsSuppressPosRespBit = 0x80 :=
        UInt8.toBitVec_inj.mp (or_and_bit raw.toBitVec)
      change (raw ||| udsSuppressPosRespBit) &&& udsSuppressPosRespBit ≠ 0
      rw [set]
      decide

/-! ## The handlers -/

section Handlers

variable {ρ ω : Type} (amb : Ambient) (s : VecuState ρ ω) {req req' : List UInt8} (cap : Nat)

/-- Two handler calls that leave the same state and differ in transmission only. -/
def DifferInTransmission (sid : UInt8) (plain marked : VecuState ρ ω × Reply) : Prop :=
  marked.1 = plain.1 ∧ Suppressed sid plain.2 marked.2

theorem DifferInTransmission.refused (s : VecuState ρ ω) (sid : UInt8) (nrc : UdsNrc) :
    DifferInTransmission sid (s, .negative sid nrc) (s, .negative sid nrc) :=
  ⟨rfl, .negative nrc⟩

/-- Every positive exit of the five handlers: the bytes are stored in either case. -/
theorem Marked.answered (marked : Marked req req') (s : VecuState ρ ω) (bytes : List UInt8)
    (len : Nat) :
    DifferInTransmission (byteAt req 0)
      (s, .suppressible (byteAt req 1) (udsPosResp (byteAt req 0) :: bytes) len)
      (s, .suppressible (byteAt req' 1) (udsPosResp (byteAt req 0) :: bytes) len) := by
  refine ⟨rfl, ?_⟩
  simp only [Reply.suppressible, marked.off, marked.on, ne_eq, not_true_eq_false,
    not_false_eq_true, if_true, if_false]
  exact .positive bytes len

theorem hSessionControl_suppressed (marked : Marked req req') :
    DifferInTransmission (byteAt req 0) (hSessionControl amb s req cap)
      (hSessionControl amb s req' cap) := by
  simp only [hSessionControl, marked.length, marked.sid, marked.sub]
  split_ifs
  · exact .refused s _ _
  · exact ⟨rfl, .dropped⟩
  · exact marked.answered _ _ 6
  · exact .refused s _ _

theorem hEcuReset_suppressed (marked : Marked req req') :
    DifferInTransmission (byteAt req 0) (hEcuReset amb s req cap) (hEcuReset amb s req' cap) := by
  simp only [hEcuReset, marked.length, marked.sid, marked.sub]
  split_ifs
  · exact .refused s _ _
  · exact .refused s _ _
  · exact marked.answered _ _ 2

theorem hReadDtc_suppressed (marked : Marked req req') :
    DifferInTransmission (byteAt req 0) (hReadDtc amb s req cap) (hReadDtc amb s req' cap) := by
  simp only [hReadDtc, marked.length, marked.sid, marked.sub, marked.rest 0]
  split_ifs
  · exact .refused s _ _
  · exact .refused s _ _
  · exact .refused s _ _
  · exact .refused s _ _
  · exact marked.answered s _ _

theorem hRequestSeed_suppressed (marked : Marked req req') :
    DifferInTransmission (byteAt req 0) (hRequestSeed amb s req) (hRequestSeed amb s req') := by
  simp only [hRequestSeed, marked.length, marked.sid, marked.sub]
  split_ifs
  · exact .refused s _ _
  · cases (securityRequestSeed amb.now amb.entropy s.security (subFunction (byteAt req 1))).2 with
    | refused nrc => exact .refused _ _ nrc
    | alreadyUnlocked => exact marked.answered _ _ 6
    | issued seed => exact marked.answered _ _ 6

/-- The level of a sent key is computed from the masked byte. -/
theorem hSendKey_suppressed (marked : Marked req req') :
    DifferInTransmission (byteAt req 0) (hSendKey amb s req) (hSendKey amb s req') := by
  simp only [hSendKey, marked.length, marked.sid, marked.sub, marked.rest 0, marked.rest 1,
    marked.rest 2, marked.rest 3]
  split_ifs
  · exact .refused s _ _
  · cases (securitySendKey amb.now amb.later s.security (subFunction (byteAt req 1) - 1)
        (join32 (byteAt req 2) (byteAt req 3) (byteAt req 4) (byteAt req 5))).2 with
    | error nrc => exact .refused _ _ nrc
    | ok value => exact marked.answered _ _ 2

theorem hSecurityAccess_suppressed (marked : Marked req req') :
    DifferInTransmission (byteAt req 0) (hSecurityAccess amb s req cap)
      (hSecurityAccess amb s req' cap) := by
  simp only [hSecurityAccess, marked.length, marked.sid, marked.sub]
  split_ifs
  · exact .refused s _ _
  · exact hRequestSeed_suppressed amb s marked
  · exact hSendKey_suppressed amb s marked
  · exact .refused s _ _

theorem hTesterPresent_suppressed (marked : Marked req req') :
    DifferInTransmission (byteAt req 0) (hTesterPresent amb s req cap)
      (hTesterPresent amb s req' cap) := by
  simp only [hTesterPresent, marked.length, marked.sid, marked.sub]
  split_ifs
  · exact .refused s _ _
  · exact .refused s _ _
  · exact marked.answered _ _ 2

/-- Both requests reach the handler of the same row. -/
theorem udsProcessRequest_suppressed [DidCallbacks ρ ω] (marked : Marked req req')
    (service : HasSubFunction (byteAt req 0)) :
    DifferInTransmission (byteAt req 0) (udsProcessRequest amb s req cap)
      (udsProcessRequest amb s req' cap) := by
  by_cases unread : req.length = 0 ∨ cap < 3
  · simp only [udsProcessRequest, marked.length, unread, if_true]
    exact ⟨rfl, .dropped⟩
  simp only [udsProcessRequest, marked.length, marked.sid, unread, if_false]
  generalize same : List.find? _ _ = found
  have row : DispatchRow (byteAt req 0) found := same ▸ dispatch_row _
  cases row with
  | sessionControl => exact hSessionControl_suppressed amb s cap marked
  | ecuReset => exact hEcuReset_suppressed amb s cap marked
  | clearDtc code => simp [HasSubFunction, code] at service
  | readDtc => exact hReadDtc_suppressed amb s cap marked
  | readDid code => simp [HasSubFunction, code] at service
  | securityAccess => exact hSecurityAccess_suppressed amb s cap marked
  | writeDid code => simp [HasSubFunction, code] at service
  | testerPresent => exact hTesterPresent_suppressed amb s cap marked
  | unsupported => exact .refused s _ _

end Handlers

/-! ## The services without sub-function -/

section Plain

variable {ρ ω : Type} (amb : Ambient) (s : VecuState ρ ω) (req : List UInt8) (cap : Nat)

theorem hClearDtc_transmitted : (hClearDtc amb s req cap).2.rc ≠ 1 := by
  simp only [hClearDtc]
  split_ifs <;> simp [Reply.negative, Reply.positive]

theorem hReadDid_transmitted [DidCallbacks ρ ω] : (hReadDid amb s req cap).2.rc ≠ 1 := by
  simp only [hReadDid]
  split_ifs
  · simp [Reply.negative]
  · cases didTableLookup s.dids (join16 (byteAt req 1) (byteAt req 2)) with
    | none => simp [Reply.negative]
    | some e =>
        simp only
        cases didPayload s e with
        | bytes payload =>
            simp only
            split_ifs <;> simp [Reply.negative, Reply.positive]
        | refused => simp [Reply.negative]
        | overflow => simp [Reply.dropped]

theorem hWriteDid_transmitted [DidCallbacks ρ ω] : (hWriteDid amb s req cap).2.rc ≠ 1 := by
  simp only [hWriteDid]
  split_ifs
  · simp [Reply.negative]
  · cases didTableLookup s.dids (join16 (byteAt req 1) (byteAt req 2)) with
    | none => simp [Reply.negative]
    | some e =>
        simp only
        cases e.write with
        | none => simp [Reply.negative]
        | some fn =>
            simp only
            split_ifs <;> simp [Reply.negative, Reply.positive]

end Plain

/-- **The suppress bit changes nothing but transmission.** The two calls leave the same
state, response bytes and length; a positive answer is withheld, a negative one is sent
unchanged, and a failed call fails in both. Services without sub-function withhold
nothing. -/
theorem suppress_bit_only_withholds {ρ ω : Type} [DidCallbacks ρ ω] (amb : Ambient)
    (s : VecuState ρ ω) (req : List UInt8) (cap : Nat) :
    let plain := udsProcessRequest amb s req cap
    let marked := udsProcessRequest amb s (withSuppressBit req) cap
    (HasSubFunction (byteAt req 0) → 2 ≤ req.length →
      byteAt req 1 &&& udsSuppressPosRespBit = 0 →
        marked.1 = plain.1 ∧ marked.2.resp = plain.2.resp ∧ marked.2.respLen = plain.2.respLen ∧
          ((plain.2.rc = 0 ∧ byteAt plain.2.resp 0 = udsPosResp (byteAt req 0) ∧
              marked.2.rc = 1) ∨
            (plain.2.rc = 0 ∧ (∃ nrc, plain.2.resp = buildNrc (byteAt req 0) nrc) ∧
              marked.2.rc = 0) ∨
            (plain.2.rc = -1 ∧ marked.2.rc = -1))) ∧
      (¬ HasSubFunction (byteAt req 0) → plain.2.rc ≠ 1) := by
  intro plain marked
  constructor
  · intro service long off
    obtain ⟨sameState, replies⟩ :=
      udsProcessRequest_suppressed amb s cap (marked_withSuppressBit long off) service
    refine ⟨sameState, ?_⟩
    change Suppressed _ plain.2 marked.2 at replies
    generalize plain.2 = first at replies ⊢
    generalize marked.2 = second at replies ⊢
    cases replies with
    | positive bytes len => exact ⟨rfl, rfl, .inl ⟨rfl, rfl, rfl⟩⟩
    | negative nrc => exact ⟨rfl, rfl, .inr (.inl ⟨rfl, ⟨nrc, rfl⟩, rfl⟩)⟩
    | dropped => exact ⟨rfl, rfl, .inr (.inr ⟨rfl, rfl⟩)⟩
  · intro service
    by_cases unread : req.length = 0 ∨ cap < 3
    · simp only [plain, udsProcessRequest, unread, if_true]
      decide
    simp only [plain, udsProcessRequest, unread, if_false]
    generalize same : List.find? _ _ = found
    have row : DispatchRow (byteAt req 0) found := same ▸ dispatch_row _
    cases row with
    | clearDtc => exact hClearDtc_transmitted amb s req cap
    | readDid => exact hReadDid_transmitted amb s req cap
    | writeDid => exact hWriteDid_transmitted amb s req cap
    | unsupported => simp [Reply.negative]
    | _ code => exact absurd (by simp [HasSubFunction, code]) service

/-- A seed request in an extended session, with and without the bit. -/
theorem suppress_bit_only_withholds_seed :
    let amb : Ambient := ⟨0, 0, some 1, fun _ => (3200, 0)⟩
    let s := vecuSetSession 0 (vecuInit 0) udsSessionExtended
    let plain := udsProcessRequest amb s [0x27, 0x01] 6
    let marked := udsProcessRequest amb s [0x27, 0x81] 6
    marked.1 = plain.1 ∧ marked.2.resp = plain.2.resp ∧ plain.2.rc = 0 ∧ marked.2.rc = 1 := by
  intro amb s plain marked
  obtain ⟨state, resp, -, -⟩ :=
    (suppress_bit_only_withholds amb s [0x27, 0x01] 6).1 (by simp [HasSubFunction]) (by decide)
      (by decide)
  exact ⟨state, resp, by decide +kernel, by decide +kernel⟩

end VecuUds
