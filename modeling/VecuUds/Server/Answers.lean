import VecuUds.Server.Basic

/-!
# Answers and frame conditions of every request

The response grammar of the server and the part of the state that each service may
touch, for every reachable state and every request. A request that is answered
negatively has no effect at all, with the one exception of a key that was judged and
found wrong: the code of the answer says what that leaves behind.
-/

namespace VecuUds

open Foundation

/-! ## Response grammar -/

/-- A positive answer: the service byte plus `0x40`, then what the service echoes. -/
def PositiveAnswer (req resp : List UInt8) : Prop :=
  ∃ sid : UdsSid, byteAt req 0 = sid.code ∧ byteAt resp 0 = byteAt req 0 + 0x40 ∧
    match sid with
    | .clearDtc => resp.length = 1
    | .readDataByIdentifier | .writeDataByIdentifier =>
        3 ≤ resp.length ∧ byteAt resp 1 = byteAt req 1 ∧ byteAt resp 2 = byteAt req 2
    | _ => 2 ≤ resp.length ∧ byteAt resp 1 = subFunction (byteAt req 1)

/-- A negative answer: three bytes with a response code documented for the service. -/
def NegativeAnswer (req resp : List UInt8) : Prop :=
  ∃ nrc ∈ documentedNrcs (byteAt req 0), resp = [0x7F, byteAt req 0, nrc]

/-- The answer grammar. `respLen` is the value stored through the length pointer. -/
structure WellFormedAnswer (req : List UInt8) (reply : Reply) : Prop where
  rc : reply.rc = 0 ∨ reply.rc = 1
  respLen : reply.respLen = some reply.resp.length
  nonempty : 1 ≤ reply.resp.length
  bounded : reply.resp.length ≤ udsMaxMsgLen
  shape : PositiveAnswer req reply.resp ∨ NegativeAnswer req reply.resp
  suppressed : reply.rc = 1 → PositiveAnswer req reply.resp

section Grammar

variable {req : List UInt8}

private theorem wellFormed_negative {nrc : UdsNrc} {sid : UInt8} (same : byteAt req 0 = sid)
    (documented : nrc.code ∈ documentedNrcs sid) : WellFormedAnswer req (.negative sid nrc) where
  rc := .inl rfl
  respLen := rfl
  nonempty := (by decide : 1 ≤ 3)
  bounded := (by decide : 3 ≤ udsMaxMsgLen)
  shape := .inr ⟨nrc.code, by rwa [same], by rw [same]; rfl⟩
  suppressed := fun impossible => absurd impossible (by decide : (0 : Int) ≠ 1)

private theorem wellFormed_positive {bytes : List UInt8} {len : Nat}
    (counted : bytes.length = len) (nonempty : 1 ≤ len) (bounded : len ≤ udsMaxMsgLen)
    (shape : PositiveAnswer req bytes) : WellFormedAnswer req (.positive bytes len) where
  rc := .inl rfl
  respLen := congrArg some counted.symm
  nonempty := counted ▸ nonempty
  bounded := counted ▸ bounded
  shape := .inl shape
  suppressed := fun _ => shape

private theorem wellFormed_suppressible {raw : UInt8} {bytes : List UInt8} {len : Nat}
    (counted : bytes.length = len) (nonempty : 1 ≤ len) (bounded : len ≤ udsMaxMsgLen)
    (shape : PositiveAnswer req bytes) : WellFormedAnswer req (.suppressible raw bytes len) where
  rc := by
    simp only [Reply.suppressible]
    split
    · exact .inr rfl
    · exact .inl rfl
  respLen := congrArg some counted.symm
  nonempty := counted ▸ nonempty
  bounded := counted ▸ bounded
  shape := .inl shape
  suppressed := fun _ => shape

/-- Every outcome of a request is a well-formed answer. -/
theorem Effect.wellFormed {amb : Ambient} {s s' : EcuState} {reply : Reply}
    (effect : Effect amb s req s' reply) : WellFormedAnswer req reply := by
  cases effect with
  | refused nrc documented => exact wellFormed_negative rfl documented
  | sessionControl raw request known =>
      subst request
      exact wellFormed_suppressible rfl (by decide) (by decide)
        ⟨.diagnosticSessionControl, rfl, rfl, (by decide : 2 ≤ 6), rfl⟩
  | ecuReset raw request known =>
      subst request
      exact wellFormed_suppressible rfl (by decide) (by decide)
        ⟨.ecuReset, rfl, rfl, (by decide : 2 ≤ 2), rfl⟩
  | clearDtc request =>
      subst request
      exact wellFormed_positive rfl (by decide) (by decide) ⟨.clearDtc, rfl, rfl, rfl⟩
  | readDtc raw mask request known snap taken =>
      subst request
      have bound : snap.length ≤ 16 := by
        rw [taken]
        exact length_dtcMemSnapshotLoop_le _ _ _
      have total : ([0x59, 0x02, s.dtcs.availabilityMask] ++
          snap.flatMap DtcEntry.encode).length = 3 + snap.length * 4 := by
        simp only [List.length_append, length_flatMap_encode, List.length_cons, List.length_nil]
      have fits : 3 + snap.length * 4 ≤ udsMaxMsgLen := by
        simp only [udsMaxMsgLen]
        omega
      exact wellFormed_suppressible total (by omega) fits
        ⟨.readDtc, rfl, rfl, by omega, known.symm⟩
  | readDid hi lo request e found payload collected short =>
      subst request
      have total : ([0x62, hi, lo] ++ payload).length = 3 + payload.length := by
        simp only [List.length_append, List.length_cons, List.length_nil]
      have fits : 3 + payload.length ≤ udsMaxMsgLen := by
        simp only [udsMaxMsgLen]
        omega
      exact wellFormed_positive total (by omega) fits
        ⟨.readDataByIdentifier, rfl, rfl, by omega, rfl, rfl⟩
  | requestSeed raw request known gate t result seed effect carried =>
      subst request
      exact wellFormed_suppressible rfl (by decide) (by decide)
        ⟨.securityAccess, rfl, rfl, (by decide : 2 ≤ 6), known.symm⟩
  | keyAccepted raw k₀ k₁ k₂ k₃ request known gate t effect =>
      subst request
      exact wellFormed_suppressible rfl (by decide) (by decide)
        ⟨.securityAccess, rfl, rfl, by decide, known.symm⟩
  | keyRejected raw k₀ k₁ k₂ k₃ request known gate t nrc judged effect =>
      subst request
      rcases judged with rfl | rfl
      · exact wellFormed_negative rfl (by decide)
      · exact wellFormed_negative rfl (by decide)
  | writeDid data request nonempty fits gate unlocked =>
      subst request
      exact wellFormed_positive rfl (by decide) (by decide)
        ⟨.writeDataByIdentifier, rfl, rfl, by decide, rfl, rfl⟩
  | testerPresent raw request known =>
      subst request
      exact wellFormed_suppressible rfl (by decide) (by decide)
        ⟨.testerPresent, rfl, rfl, by decide, known.symm⟩

end Grammar

/-- A state with the ECU's own DID table answers every request. -/
theorem answer_wellFormed (amb : Ambient) {s : EcuState} (registered : s.dids = ecuDids)
    {req : List UInt8} (nonempty : 1 ≤ req.length) :
    WellFormedAnswer req (udsProcessRequest amb s req udsMaxMsgLen).2 := by
  have present : req ≠ [] := by
    rintro rfl
    simp at nonempty
  exact (udsProcessRequest_effect amb registered present).wellFormed

/-- **Every request gets a well-formed answer**, in every reachable state. -/
theorem every_request_answered (boot : UInt64) (past : List ServerInput) (amb : Ambient)
    (req : List UInt8) (nonempty : 1 ≤ req.length) :
    WellFormedAnswer req (udsProcessRequest amb (serverRun boot past) req udsMaxMsgLen).2 :=
  answer_wellFormed amb (serverRun_dids boot past) nonempty

theorem every_request_answered_seed :
    WellFormedAnswer [0x27, 0x01] (udsProcessRequest (.still 1)
      (serverRun 0 [.requestAt 0 [0x10, 0x03]]) [0x27, 0x01] udsMaxMsgLen).2 :=
  every_request_answered 0 [.requestAt 0 [0x10, 0x03]] (.still 1) [0x27, 0x01] (by decide)

/-! ## Frame conditions -/

/-- What a service may change between `s` and `s'`, everything else being equal. -/
def Touches (sid : UInt8) (s s' : EcuState) : Prop :=
  if sid = 0x10 then
    s' = { s with session := s'.session, lastTesterPresentMs := s'.lastTesterPresentMs }
  else if sid = 0x11 then
    s' = { s with
      session := s'.session, lastTesterPresentMs := s'.lastTesterPresentMs,
      security := s'.security }
  else if sid = 0x14 then
    s' = { s with dtcs := s'.dtcs } ∧ s'.dtcs.availabilityMask = s.dtcs.availabilityMask
  else if sid = 0x27 then s' = { s with security := s'.security }
  else if sid = 0x2E then s' = { s with owner := s'.owner }
  else if sid = 0x3E then s' = { s with lastTesterPresentMs := s'.lastTesterPresentMs }
  else s' = s

theorem Touches.refl (sid : UInt8) (s : EcuState) : Touches sid s s := by
  unfold Touches
  split_ifs
  all_goals first | rfl | exact ⟨rfl, rfl⟩

/-- A sendKey request that is judged: it carries a key, and a seed is issued. -/
def JudgedKey (s : EcuState) (req : List UInt8) : Prop :=
  req.length = 6 ∧ byteAt req 0 = 0x27 ∧ (byteAt req 1 = 0x02 ∨ byteAt req 1 = 0x82) ∧
    s.security.seedIssued = true

/-- What a negative answer leaves behind. The answers `35` and `36` judge a key: the seed
is spent and the failure counted, and `36` arms the lock-out from the second clock reading.
Every other negative answer has no effect. -/
def NegativeEffect (amb : Ambient) (s : EcuState) (req resp : List UInt8) (s' : EcuState) : Prop :=
  if resp = [0x7F, 0x27, 0x35] then
    JudgedKey s req ∧
      s' = { s with security :=
        { s.security with seedIssued := false, failCount := s.security.failCount + 1 } }
  else if resp = [0x7F, 0x27, 0x36] then
    JudgedKey s req ∧
      s' = { s with security :=
        { s.security with
          seedIssued := false, failCount := s.security.failCount + 1,
          lockUntilMs := amb.later + securityLockDurationMs } }
  else s' = s

section Frame

variable {amb : Ambient} {s s' : EcuState} {req : List UInt8} {reply : Reply}

theorem Effect.touches (effect : Effect amb s req s' reply) : Touches (byteAt req 0) s s' := by
  cases effect with
  | refused => exact .refl _ s
  | sessionControl raw request known => subst request; rfl
  | ecuReset raw request known => subst request; rfl
  | clearDtc request => subst request; exact ⟨rfl, rfl⟩
  | readDtc => exact .refl _ s
  | readDid => exact .refl _ s
  | requestSeed raw request => subst request; rfl
  | keyAccepted raw k₀ k₁ k₂ k₃ request => subst request; rfl
  | keyRejected raw k₀ k₁ k₂ k₃ request => subst request; rfl
  | writeDid data request => subst request; rfl
  | testerPresent raw request => subst request; rfl

theorem NegativeEffect.invalidKey (judged : JudgedKey s req) :
    NegativeEffect amb s req [0x7F, 0x27, 0x35]
      { s with security :=
        { s.security with seedIssued := false, failCount := s.security.failCount + 1 } } := by
  rw [NegativeEffect, if_pos rfl]
  exact ⟨judged, rfl⟩

theorem NegativeEffect.exceeded (judged : JudgedKey s req) :
    NegativeEffect amb s req [0x7F, 0x27, 0x36]
      { s with security :=
        { s.security with
          seedIssued := false, failCount := s.security.failCount + 1,
          lockUntilMs := amb.later + securityLockDurationMs } } := by
  rw [NegativeEffect, if_neg (by decide), if_pos rfl]
  exact ⟨judged, rfl⟩

/-- An answer with any other code has no effect. -/
theorem NegativeEffect.unjudged {resp : List UInt8} (invalid : resp ≠ [0x7F, 0x27, 0x35])
    (exceeded : resp ≠ [0x7F, 0x27, 0x36]) : NegativeEffect amb s req resp s := by
  rw [NegativeEffect, if_neg invalid, if_neg exceeded]

/-- The effect of a negative answer is the one of its response code. -/
theorem Effect.negative (effect : Effect amb s req s' reply)
    (negative : byteAt reply.resp 0 = 0x7F) : NegativeEffect amb s req reply.resp s' := by
  cases effect with
  | refused nrc documented unjudged =>
      have other : ∀ code : UdsNrc, nrc ≠ code →
          (Reply.negative (byteAt req 0) nrc).resp ≠ [0x7F, 0x27, code.code] := by
        intro code distinct same
        have third := (List.cons.inj (List.cons.inj (List.cons.inj same).2).2).1
        exact distinct (UdsNrc.code_inj third)
      exact .unjudged (other .invalidKey unjudged.1) (other .exceededNumberOfAttempts unjudged.2)
  | keyRejected raw k₀ k₁ k₂ k₃ request known gate t nrc judged effect =>
      subst request
      cases effect with
      | outOfSequence => simp at judged
      | lockedOut => simp at judged
      | invalid issued => exact .invalidKey ⟨rfl, rfl, subFunction_eq_two known, issued⟩
      | exceeded issued => exact .exceeded ⟨rfl, rfl, subFunction_eq_two known, issued⟩
  | sessionControl => exact absurd negative (by decide : (0x50 : UInt8) ≠ 0x7F)
  | ecuReset => exact absurd negative (by decide : (0x51 : UInt8) ≠ 0x7F)
  | clearDtc => exact absurd negative (by decide : (0x54 : UInt8) ≠ 0x7F)
  | readDtc => exact absurd negative (by decide : (0x59 : UInt8) ≠ 0x7F)
  | readDid => exact absurd negative (by decide : (0x62 : UInt8) ≠ 0x7F)
  | requestSeed => exact absurd negative (by decide : (0x67 : UInt8) ≠ 0x7F)
  | keyAccepted => exact absurd negative (by decide : (0x67 : UInt8) ≠ 0x7F)
  | writeDid => exact absurd negative (by decide : (0x6E : UInt8) ≠ 0x7F)
  | testerPresent => exact absurd negative (by decide : (0x7E : UInt8) ≠ 0x7F)

end Frame

/-- **Frame and atomicity of every request.** The empty request is dropped without
an answer and has no effect either. -/
theorem request_frame_and_atomicity (boot : UInt64) (past : List ServerInput) (amb : Ambient)
    (req : List UInt8) :
    let s := serverRun boot past
    let r := udsProcessRequest amb s req udsMaxMsgLen
    Touches (byteAt req 0) s r.1 ∧
      (byteAt r.2.resp 0 = 0x7F → NegativeEffect amb s req r.2.resp r.1) := by
  intro s r
  by_cases empty : req = []
  · have idle : r = (s, .dropped) := by simp [r, empty, udsProcessRequest]
    rw [idle]
    exact ⟨.refl _ s, fun negative => absurd negative (by decide : (0x00 : UInt8) ≠ 0x7F)⟩
  · have effect : Effect amb s req r.1 r.2 :=
      udsProcessRequest_effect amb (serverRun_dids boot past) empty
    exact ⟨effect.touches, effect.negative⟩

end VecuUds
