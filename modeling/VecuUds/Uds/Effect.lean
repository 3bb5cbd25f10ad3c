import VecuUds.Uds.Handlers

/-!
# What one request can do

`Effect` lists every way in which `uds_process_request` can end on the ECU's own DID
table with a full-size response buffer: the request it answers, the state it leaves and
the reply it gives. `udsProcessRequest_effect` is the only place where the handlers are
unfolded. Frame conditions, the response grammar and every invariant of the running
server are case analyses over these outcomes.

`documentedNrcs` is the response-code column of the service table in the README, not a
reading of the handlers.
-/

namespace VecuUds

open Foundation

/-- The response codes that the README documents for a service. -/
def documentedNrcs (sid : UInt8) : List UInt8 :=
  if sid = 0x10 ∨ sid = 0x11 ∨ sid = 0x3E then [0x12, 0x13]
  else if sid = 0x14 then [0x13, 0x31]
  else if sid = 0x19 then [0x12, 0x13, 0x14]
  else if sid = 0x22 then [0x13, 0x14, 0x22, 0x31]
  else if sid = 0x27 then [0x12, 0x13, 0x24, 0x35, 0x36, 0x37, 0x7F]
  else if sid = 0x2E then [0x13, 0x22, 0x31, 0x33, 0x7F]
  else [0x11]

/-- The seed that a positive answer to a seed request carries. -/
def SeedResult.seed : SeedResult → Option UInt32
  | .issued seed => some seed
  | .alreadyUnlocked => some 0
  | .refused _ => none

/-- The state after a positive reset at the given clock reading. -/
def VecuState.ecuReset {ρ ω : Type} (now : UInt64) (s : VecuState ρ ω) : VecuState ρ ω :=
  { vecuSetSession now s udsSessionDefault with security := s.security.reset }

/-- Every outcome of one request, with the state and the reply it produces. -/
inductive Effect (amb : Ambient) (s : EcuState) (req : List UInt8) : EcuState → Reply → Prop where
  /-- A negative answer that leaves the whole state alone. No key was judged. -/
  | refused (nrc : UdsNrc) (documented : nrc.code ∈ documentedNrcs (byteAt req 0))
      (unjudged : nrc ≠ .invalidKey ∧ nrc ≠ .exceededNumberOfAttempts) :
      Effect amb s req s (.negative (byteAt req 0) nrc)
  | sessionControl (raw : UInt8) (request : req = [0x10, raw])
      (known : subFunction raw = udsSessionDefault ∨ subFunction raw = udsSessionProgramming ∨
        subFunction raw = udsSessionExtended) :
      Effect amb s req (vecuSetSession amb.now s (subFunction raw))
        (.suppressible raw [0x50, subFunction raw, 0x00, 0x32, 0x01, 0xF4] 6)
  | ecuReset (raw : UInt8) (request : req = [0x11, raw])
      (known : subFunction raw = 0x01 ∨ subFunction raw = 0x02 ∨ subFunction raw = 0x03) :
      Effect amb s req (s.ecuReset amb.now) (.suppressible raw [0x51, subFunction raw] 2)
  | clearDtc (request : req = [0x14, 0xFF, 0xFF, 0xFF]) :
      Effect amb s req { s with dtcs := dtcMemClearAll s.dtcs } (.positive [0x54] 1)
  | readDtc (raw mask : UInt8) (request : req = [0x19, raw, mask])
      (known : subFunction raw = 0x02) (snap : List DtcEntry)
      (taken : snap = dtcMemSnapshotByMask s.dtcs mask dtcMax) :
      Effect amb s req s
        (.suppressible raw
          ([0x59, 0x02, s.dtcs.availabilityMask] ++ snap.flatMap DtcEntry.encode)
          (3 + snap.length * 4))
  | readDid (hi lo : UInt8) (request : req = [0x22, hi, lo])
      (e : DidEntry DidReadFn DidWriteFn)
      (found : didTableLookup ecuDids (join16 hi lo) = some e)
      (payload : List UInt8) (collected : didPayload s e = .bytes payload)
      (short : payload.length ≤ 256) :
      Effect amb s req s (.positive ([0x62, hi, lo] ++ payload) (3 + payload.length))
  | requestSeed (raw : UInt8) (request : req = [0x27, raw]) (known : subFunction raw = 0x01)
      (gate : isExtendedSession s = true) (t : SecurityState) (result : SeedResult)
      (seed : UInt32) (effect : SeedEffect amb.now amb.entropy s.security t result)
      (carried : result.seed = some seed) :
      Effect amb s req { s with security := t }
        (.suppressible raw ([0x67, 0x01] ++ split32 seed) 6)
  | keyAccepted (raw k₀ k₁ k₂ k₃ : UInt8) (request : req = [0x27, raw, k₀, k₁, k₂, k₃])
      (known : subFunction raw = 0x02) (gate : isExtendedSession s = true) (t : SecurityState)
      (effect : KeyEffect amb.now amb.later s.security (join32 k₀ k₁ k₂ k₃) t (.ok ())) :
      Effect amb s req { s with security := t } (.suppressible raw [0x67, 0x02] 2)
  /-- The key was judged against the issued seed and is wrong. -/
  | keyRejected (raw k₀ k₁ k₂ k₃ : UInt8) (request : req = [0x27, raw, k₀, k₁, k₂, k₃])
      (known : subFunction raw = 0x02) (gate : isExtendedSession s = true) (t : SecurityState)
      (nrc : UdsNrc) (judged : nrc = .invalidKey ∨ nrc = .exceededNumberOfAttempts)
      (effect : KeyEffect amb.now amb.later s.security (join32 k₀ k₁ k₂ k₃) t (.error nrc)) :
      Effect amb s req { s with security := t } (.negative 0x27 nrc)
  | writeDid (data : List UInt8) (request : req = [0x2E, 0xF2, 0x00] ++ data)
      (nonempty : data ≠ []) (fits : data.length ≤ ownerNameCap)
      (gate : isExtendedSession s = true) (unlocked : 1 ≤ s.security.unlockedLevel) :
      Effect amb s req { s with owner := s.owner.store data fits }
        (.positive [0x6E, 0xF2, 0x00] 3)
  | testerPresent (raw : UInt8) (request : req = [0x3E, raw])
      (known : subFunction raw = 0x00) :
      Effect amb s req (vecuMarkTesterPresent amb.now s) (.suppressible raw [0x7E, 0x00] 2)

section Requests

variable {amb : Ambient} {s : EcuState} {req : List UInt8}

private theorem refuse (nrc : UdsNrc) {sid : UInt8} (h : byteAt req 0 = sid)
    (documented : nrc.code ∈ documentedNrcs sid ∧
      nrc ≠ .invalidKey ∧ nrc ≠ .exceededNumberOfAttempts) :
    Effect amb s req s (.negative (byteAt req 0) nrc) :=
  .refused nrc (by rw [h]; exact documented.1) documented.2

/-- A two-byte request is its service and its sub-function byte. -/
private theorem eq_pair {sid : UInt8} (h : byteAt req 0 = sid) (len : req.length = 2) :
    req = [sid, byteAt req 1] := by
  rw [← h]
  exact eq_bytes len

private theorem eq_triple {sid : UInt8} (h : byteAt req 0 = sid) (len : req.length = 3) :
    req = [sid, byteAt req 1, byteAt req 2] := by
  rw [← h]
  exact eq_bytes len

theorem hSessionControl_effect (h : byteAt req 0 = 0x10) :
    Effect amb s req (hSessionControl amb s req udsMaxMsgLen).1
      (hSessionControl amb s req udsMaxMsgLen).2 := by
  simp only [hSessionControl]
  by_cases len : req.length = 2
  · by_cases known : subFunction (byteAt req 1) = udsSessionDefault ∨
        subFunction (byteAt req 1) = udsSessionProgramming ∨
        subFunction (byteAt req 1) = udsSessionExtended
    · have effect : Effect amb s req _ _ := .sessionControl _ (eq_pair h len) known
      simpa [len, known, h, udsMaxMsgLen, udsPosResp] using effect
    · simpa [len, known] using refuse .subFunctionNotSupported h (by decide)
  · simpa [len] using refuse .incorrectMessageLength h (by decide)

theorem hEcuReset_effect (h : byteAt req 0 = 0x11) :
    Effect amb s req (hEcuReset amb s req udsMaxMsgLen).1
      (hEcuReset amb s req udsMaxMsgLen).2 := by
  simp only [hEcuReset]
  by_cases len : req.length = 2
  · by_cases known : subFunction (byteAt req 1) = 0x01 ∨ subFunction (byteAt req 1) = 0x02 ∨
        subFunction (byteAt req 1) = 0x03
    · have effect : Effect amb s req _ _ := .ecuReset _ (eq_pair h len) known
      have unknown : ¬ (subFunction (byteAt req 1) ≠ 0x01 ∧ subFunction (byteAt req 1) ≠ 0x02 ∧
          subFunction (byteAt req 1) ≠ 0x03) := by tauto
      simp only [len, ne_eq, not_true_eq_false, if_false, if_neg unknown, h]
      exact effect
    · have unknown : subFunction (byteAt req 1) ≠ 0x01 ∧ subFunction (byteAt req 1) ≠ 0x02 ∧
          subFunction (byteAt req 1) ≠ 0x03 := by tauto
      simpa only [len, ne_eq, not_true_eq_false, if_false, if_pos unknown] using
        refuse .subFunctionNotSupported h (by decide)
  · simpa [len] using refuse .incorrectMessageLength h (by decide)

theorem hClearDtc_effect (h : byteAt req 0 = 0x14) :
    Effect amb s req (hClearDtc amb s req udsMaxMsgLen).1
      (hClearDtc amb s req udsMaxMsgLen).2 := by
  simp only [hClearDtc]
  by_cases len : req.length = 4
  · by_cases all : byteAt req 1 = 0xFF ∧ byteAt req 2 = 0xFF ∧ byteAt req 3 = 0xFF
    · have request : req = [0x14, 0xFF, 0xFF, 0xFF] := by
        have bytes : req = [byteAt req 0, byteAt req 1, byteAt req 2, byteAt req 3] := eq_bytes len
        rwa [h, all.1, all.2.1, all.2.2] at bytes
      have effect : Effect amb s req _ _ := .clearDtc request
      simpa [len, all, h, udsPosResp] using effect
    · simpa [len, all] using refuse .requestOutOfRange h (by decide)
  · simpa [len] using refuse .incorrectMessageLength h (by decide)

theorem length_flatMap_encode (snap : List DtcEntry) :
    (snap.flatMap DtcEntry.encode).length = snap.length * 4 := by
  induction snap with
  | nil => rfl
  | cons e rest ih =>
      rw [List.flatMap_cons, List.length_append, ih, List.length_cons]
      simp only [DtcEntry.encode, List.length_cons, List.length_nil]
      omega

theorem hReadDtc_effect (h : byteAt req 0 = 0x19) :
    Effect amb s req (hReadDtc amb s req udsMaxMsgLen).1
      (hReadDtc amb s req udsMaxMsgLen).2 := by
  simp only [hReadDtc]
  by_cases short : req.length < 2
  · simpa [short] using refuse .incorrectMessageLength h (by decide)
  by_cases known : subFunction (byteAt req 1) = 0x02
  · by_cases len : req.length = 3
    · have bounded : (dtcMemSnapshotByMask s.dtcs (byteAt req 2) dtcMax).length ≤ 16 :=
        length_dtcMemSnapshotLoop_le _ _ _
      have fits : ¬ udsMaxMsgLen <
          3 + (dtcMemSnapshotByMask s.dtcs (byteAt req 2) dtcMax).length * 4 := by
        simp only [udsMaxMsgLen]
        omega
      have effect : Effect amb s req _ _ := .readDtc _ _ (eq_triple h len) known _ rfl
      simpa [len, known, fits, h, udsPosResp] using effect
    · simpa [short, known, len] using refuse .incorrectMessageLength h (by decide)
  · simpa [short, known] using refuse .subFunctionNotSupported h (by decide)

/-- Every registered DID yields at most 256 bytes and never fails. -/
theorem didPayload_ecuDids {e : DidEntry DidReadFn DidWriteFn} (member : e ∈ ecuDids.entries) :
    ∃ payload, didPayload s e = .bytes payload ∧ payload.length ≤ 256 := by
  have shape : ecuDids.entries.map (fun e => (e.staticData, e.staticLen, e.read)) =
      [(some vinData, 17, none), (some serialData, 12, none), (some spareData, 8, none),
        (none, 0, some .appReadRpm), (none, 0, some .appReadSpeed),
        (none, 0, some .appReadCoolant), (none, 0, some .ownerRead)] := by decide
  have row : (e.staticData, e.staticLen, e.read) ∈
      ecuDids.entries.map (fun e => (e.staticData, e.staticLen, e.read)) :=
    List.mem_map.mpr ⟨e, member, rfl⟩
  rw [shape] at row
  simp only [List.mem_cons, Prod.mk.injEq, List.not_mem_nil, or_false] at row
  have ownerBound : s.owner.len ≤ 32 := s.owner.len_le
  rcases row with ⟨d, l, r⟩ | ⟨d, l, r⟩ | ⟨d, l, r⟩ | ⟨d, l, r⟩ | ⟨d, l, r⟩ | ⟨d, l, r⟩ |
    ⟨d, l, r⟩
  all_goals
    simp [didPayload, d, l, r, DidCallbacks.read, appReadRpm, appReadSpeed, appReadCoolant,
      ownerRead, vinData, serialData, spareData]
  split <;> omega

theorem hReadDid_effect (h : byteAt req 0 = 0x22) (registered : s.dids = ecuDids) :
    Effect amb s req (hReadDid amb s req udsMaxMsgLen).1
      (hReadDid amb s req udsMaxMsgLen).2 := by
  simp only [hReadDid, registered, join16_high, join16_low]
  by_cases len : req.length = 3
  · cases found : didTableLookup ecuDids (join16 (byteAt req 1) (byteAt req 2)) with
    | none => simpa [len] using refuse .requestOutOfRange h (by decide)
    | some e =>
        have member : e ∈ ecuDids.entries := List.mem_of_find?_eq_some found
        obtain ⟨payload, collected, short⟩ := didPayload_ecuDids (s := s) member
        have fits : ¬ udsMaxMsgLen < 3 + payload.length := by
          simp only [udsMaxMsgLen]
          omega
        have effect : Effect amb s req _ _ :=
          .readDid _ _ (eq_triple h len) e found payload collected short
        simpa [len, collected, fits, h, udsPosResp] using effect
  · simpa [len] using refuse .incorrectMessageLength h (by decide)

theorem hRequestSeed_effect (h : byteAt req 0 = 0x27) (gate : isExtendedSession s = true) :
    Effect amb s req (hRequestSeed amb s req).1 (hRequestSeed amb s req).2 := by
  simp only [hRequestSeed]
  by_cases len : req.length = 2
  swap
  · simpa [len] using refuse .incorrectMessageLength h (by decide)
  simp only [len, ne_eq, not_true_eq_false, if_false]
  by_cases known : subFunction (byteAt req 1) = 0x01
  · have request := eq_pair h len
    have positive : udsPosResp (byteAt req 0) = 0x67 := by rw [h]; rfl
    rw [known, positive]
    have effect := securityRequestSeed_effect amb.now amb.entropy s.security
    generalize securityRequestSeed amb.now amb.entropy s.security 0x01 = r at effect ⊢
    obtain ⟨t, result⟩ := r
    cases result with
    | issued seed => exact .requestSeed _ request known gate t _ seed effect rfl
    | alreadyUnlocked => exact .requestSeed _ request known gate t _ 0 effect rfl
    | refused nrc =>
        cases effect
        exact refuse .requiredTimeDelayNotExpired h (by decide)
  · simpa [securityRequestSeed, levelSupported, known] using
      refuse .subFunctionNotSupported h (by decide)

/-- Subtracting one reaches the supported level from the sub-function `02` only. -/
theorem pred_eq_one {sub : UInt8} : sub - 1 = 0x01 ↔ sub = 0x02 := by
  constructor
  · intro pred
    have restored : sub - 1 + 1 = 0x01 + 1 := by rw [pred]
    simpa using restored
  · rintro rfl
    rfl

theorem hSendKey_effect (h : byteAt req 0 = 0x27) (gate : isExtendedSession s = true) :
    Effect amb s req (hSendKey amb s req).1 (hSendKey amb s req).2 := by
  simp only [hSendKey]
  by_cases len : req.length = 6
  swap
  · simpa [len] using refuse .incorrectMessageLength h (by decide)
  simp only [len, ne_eq, not_true_eq_false, if_false]
  by_cases known : subFunction (byteAt req 1) = 0x02
  · have request : req =
        [0x27, byteAt req 1, byteAt req 2, byteAt req 3, byteAt req 4, byteAt req 5] := by
      rw [← h]
      exact eq_bytes len
    have positive : udsPosResp (byteAt req 0) = 0x67 := by rw [h]; rfl
    rw [pred_eq_one.mpr known, known, positive]
    have effect := securitySendKey_effect amb.now amb.later s.security
      (join32 (byteAt req 2) (byteAt req 3) (byteAt req 4) (byteAt req 5))
    generalize securitySendKey amb.now amb.later s.security 0x01
      (join32 (byteAt req 2) (byteAt req 3) (byteAt req 4) (byteAt req 5)) = r at effect ⊢
    obtain ⟨t, result⟩ := r
    cases result with
    | ok _ => exact .keyAccepted _ _ _ _ _ request known gate t effect
    | error nrc =>
        have judged : nrc = .invalidKey ∨ nrc = .exceededNumberOfAttempts →
            Effect amb s req { s with security := t } (.negative (byteAt req 0) nrc) := by
          intro wrong
          rw [h]
          exact .keyRejected _ _ _ _ _ request known gate t nrc wrong effect
        cases effect with
        | outOfSequence => exact refuse .requestSequenceError h (by decide)
        | lockedOut => exact refuse .requiredTimeDelayNotExpired h (by decide)
        | invalid => exact judged (.inl rfl)
        | exceeded => exact judged (.inr rfl)
  · have unsupported : ¬ subFunction (byteAt req 1) - 1 = 0x01 := by
      intro level
      exact known (pred_eq_one.mp level)
    simpa [securitySendKey, levelSupported, unsupported] using
      refuse .subFunctionNotSupported h (by decide)

theorem hSecurityAccess_effect (h : byteAt req 0 = 0x27) :
    Effect amb s req (hSecurityAccess amb s req udsMaxMsgLen).1
      (hSecurityAccess amb s req udsMaxMsgLen).2 := by
  simp only [hSecurityAccess]
  by_cases short : req.length < 2
  · simpa [short] using refuse .incorrectMessageLength h (by decide)
  by_cases gate : isExtendedSession s = true
  · by_cases odd : subFunction (byteAt req 1) &&& 0x01 = 0x01
    · simpa [short, gate, odd] using hRequestSeed_effect h gate
    · simpa [short, gate, odd] using hSendKey_effect h gate
  · simpa [short, gate] using refuse .serviceNotSupportedInSession h (by decide)

/-- The owner name is the only registered DID with a write callback. -/
theorem ecuDids_writable {e : DidEntry DidReadFn DidWriteFn} (member : e ∈ ecuDids.entries)
    {fn : DidWriteFn} (writable : e.write = some fn) :
    e.did = 0xF200 ∧ e.requiresExtendedSession = true ∧ e.requiresSecurity = true := by
  have rows : ∀ e ∈ ecuDids.entries, e.write ≠ none →
      e.did = 0xF200 ∧ e.requiresExtendedSession = true ∧ e.requiresSecurity = true := by decide
  exact rows e member (by rw [writable]; exact Option.some_ne_none fn)

theorem hWriteDid_effect (h : byteAt req 0 = 0x2E) (registered : s.dids = ecuDids) :
    Effect amb s req (hWriteDid amb s req udsMaxMsgLen).1
      (hWriteDid amb s req udsMaxMsgLen).2 := by
  simp only [hWriteDid, registered, join16_high, join16_low]
  by_cases short : req.length < 4
  · simpa [short] using refuse .incorrectMessageLength h (by decide)
  cases found : didTableLookup ecuDids (join16 (byteAt req 1) (byteAt req 2)) with
  | none => simpa [short] using refuse .requestOutOfRange h (by decide)
  | some e =>
      cases writable : e.write with
      | none => simpa [short, writable] using refuse .requestOutOfRange h (by decide)
      | some fn =>
          have member : e ∈ ecuDids.entries := List.mem_of_find?_eq_some found
          obtain ⟨did, extended, security⟩ := ecuDids_writable member writable
          by_cases gate : isExtendedSession s = true
          swap
          · simpa [short, writable, extended, gate] using
              refuse .serviceNotSupportedInSession h (by decide)
          by_cases unlocked : securityIsUnlocked s.security 0x01 = true
          swap
          · simpa [short, writable, gate, security, unlocked] using
              refuse .securityAccessDenied h (by decide)
          simp only [short, writable, gate, unlocked, not_true_eq_false, and_false, if_false]
          cases fn
          by_cases bad : (req.drop 3).length = 0 ∨ (req.drop 3).length > ownerNameCap
          · simp only [DidCallbacks.write, ownerWrite_refused s.owner bad]
            exact refuse .conditionsNotCorrect h (by decide)
          · obtain ⟨nonempty, fits⟩ := not_or.mp bad
            have same : join16 (byteAt req 1) (byteAt req 2) = join16 0xF2 0x00 := by
              have matched : e.did = join16 (byteAt req 1) (byteAt req 2) := by
                simpa using List.find?_some found
              rw [← matched, did]
              rfl
            obtain ⟨hi, lo⟩ := join16_inj same
            have request : req = [0x2E, 0xF2, 0x00] ++ req.drop 3 := by
              have long : 3 ≤ req.length := by omega
              have bytes : req = [byteAt req 0, byteAt req 1, byteAt req 2] ++ req.drop 3 :=
                eq_bytes_append_drop long
              rwa [h, hi, lo] at bytes
            have positive : udsPosResp (byteAt req 0) = 0x6E := by rw [h]; rfl
            simp only [DidCallbacks.write, ownerWrite_stored s.owner nonempty (Nat.not_lt.mp fits),
              positive, hi, lo]
            exact .writeDid _ request (fun empty => nonempty (by rw [empty]; rfl)) _ gate
              (by simpa [securityIsUnlocked] using unlocked)

theorem hTesterPresent_effect (h : byteAt req 0 = 0x3E) :
    Effect amb s req (hTesterPresent amb s req udsMaxMsgLen).1
      (hTesterPresent amb s req udsMaxMsgLen).2 := by
  simp only [hTesterPresent]
  by_cases len : req.length = 2
  · by_cases known : subFunction (byteAt req 1) = 0x00
    · have effect : Effect amb s req _ _ := .testerPresent _ (eq_pair h len) known
      simpa [len, known, h, udsPosResp] using effect
    · simpa [len, known] using refuse .subFunctionNotSupported h (by decide)
  · simpa [len] using refuse .incorrectMessageLength h (by decide)

end Requests

/-- What the dispatcher's linear scan finds for a service identifier. -/
inductive DispatchRow {ρ ω : Type} [DidCallbacks ρ ω] (sid : UInt8) :
    Option (UdsSid × UdsHandler ρ ω) → Prop where
  | sessionControl (code : sid = 0x10) :
      DispatchRow sid (some (.diagnosticSessionControl, hSessionControl))
  | ecuReset (code : sid = 0x11) : DispatchRow sid (some (.ecuReset, hEcuReset))
  | clearDtc (code : sid = 0x14) : DispatchRow sid (some (.clearDtc, hClearDtc))
  | readDtc (code : sid = 0x19) : DispatchRow sid (some (.readDtc, hReadDtc))
  | readDid (code : sid = 0x22) : DispatchRow sid (some (.readDataByIdentifier, hReadDid))
  | securityAccess (code : sid = 0x27) :
      DispatchRow sid (some (.securityAccess, hSecurityAccess))
  | writeDid (code : sid = 0x2E) : DispatchRow sid (some (.writeDataByIdentifier, hWriteDid))
  | testerPresent (code : sid = 0x3E) : DispatchRow sid (some (.testerPresent, hTesterPresent))
  | unsupported (unknown : ∀ u : UdsSid, sid ≠ u.code) : DispatchRow sid none

theorem dispatch_row {ρ ω : Type} [DidCallbacks ρ ω] (sid : UInt8) :
    DispatchRow sid ((dispatch : List (UdsSid × UdsHandler ρ ω)).find? fun row =>
      row.1.code = sid) := by
  cases found : (dispatch : List (UdsSid × UdsHandler ρ ω)).find? fun row => row.1.code = sid with
  | none =>
      refine .unsupported ?_
      intro u same
      have unmatched := List.find?_eq_none.mp found
      obtain ⟨handler, row⟩ : ∃ handler, (u, handler) ∈ (dispatch : List (_ × UdsHandler ρ ω)) := by
        cases u <;> exact ⟨_, by simp [dispatch]; rfl⟩
      exact unmatched _ row (by simp [same])
  | some row =>
      have code : sid = row.1.code := by
        have matched := List.find?_some found
        exact (of_decide_eq_true matched).symm
      have member := List.mem_of_find?_eq_some found
      simp only [dispatch, List.mem_cons, List.not_mem_nil, or_false] at member
      rcases member with rfl | rfl | rfl | rfl | rfl | rfl | rfl | rfl
      · exact .sessionControl code
      · exact .ecuReset code
      · exact .clearDtc code
      · exact .readDtc code
      · exact .readDid code
      · exact .securityAccess code
      · exact .writeDid code
      · exact .testerPresent code

/-- A request that carries the code of a row is handled by that row. -/
theorem udsProcessRequest_row {ρ ω : Type} [DidCallbacks ρ ω] (amb : Ambient)
    (s : VecuState ρ ω) {req : List UInt8} {cap : Nat} {handler : UdsHandler ρ ω} {u : UdsSid}
    (room : 3 ≤ cap) (code : byteAt req 0 = u.code)
    (found : dispatch.find? (fun row => row.1.code = u.code) = some (u, handler)) :
    udsProcessRequest amb s req cap = handler amb s req cap := by
  have accepted : ¬ (req.length = 0 ∨ cap < 3) := by
    rintro (empty | small)
    · rw [List.length_eq_zero_iff.mp empty] at code
      cases u <;> exact absurd code (by decide)
    · exact absurd room (Nat.not_le.mpr small)
  rw [udsProcessRequest, if_neg accepted, code, found]

theorem three_le_udsMaxMsgLen : 3 ≤ udsMaxMsgLen := by decide

theorem udsProcessRequest_securityAccess (amb : Ambient) (s : EcuState) {req : List UInt8}
    (sid : byteAt req 0 = 0x27) :
    udsProcessRequest amb s req udsMaxMsgLen = hSecurityAccess amb s req udsMaxMsgLen :=
  udsProcessRequest_row (u := .securityAccess) amb s three_le_udsMaxMsgLen sid rfl

/-- **Every request to a reachable ECU ends in one of the listed effects.** -/
theorem udsProcessRequest_effect (amb : Ambient) {s : EcuState} {req : List UInt8}
    (registered : s.dids = ecuDids) (nonempty : req ≠ []) :
    Effect amb s req (udsProcessRequest amb s req udsMaxMsgLen).1
      (udsProcessRequest amb s req udsMaxMsgLen).2 := by
  have accepted : ¬ (req.length = 0 ∨ udsMaxMsgLen < 3) := by
    simp [List.length_eq_zero_iff, nonempty, udsMaxMsgLen]
  simp only [udsProcessRequest, accepted, if_false]
  generalize same : List.find? _ _ = found
  have row : DispatchRow (byteAt req 0) found := same ▸ dispatch_row _
  cases row with
  | sessionControl code => exact hSessionControl_effect code
  | ecuReset code => exact hEcuReset_effect code
  | clearDtc code => exact hClearDtc_effect code
  | readDtc code => exact hReadDtc_effect code
  | readDid code => exact hReadDid_effect code registered
  | securityAccess code => exact hSecurityAccess_effect code
  | writeDid code => exact hWriteDid_effect code registered
  | testerPresent code => exact hTesterPresent_effect code
  | unsupported unknown =>
      refine .refused .serviceNotSupported ?_ (by decide)
      have session : byteAt req 0 ≠ 0x10 := unknown .diagnosticSessionControl
      have reset : byteAt req 0 ≠ 0x11 := unknown .ecuReset
      have clear : byteAt req 0 ≠ 0x14 := unknown .clearDtc
      have dtcs : byteAt req 0 ≠ 0x19 := unknown .readDtc
      have reading : byteAt req 0 ≠ 0x22 := unknown .readDataByIdentifier
      have security : byteAt req 0 ≠ 0x27 := unknown .securityAccess
      have writing : byteAt req 0 ≠ 0x2E := unknown .writeDataByIdentifier
      have tester : byteAt req 0 ≠ 0x3E := unknown .testerPresent
      simp [documentedNrcs, UdsNrc.code, *]

end VecuUds
