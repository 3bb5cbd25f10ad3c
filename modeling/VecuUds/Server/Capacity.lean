import VecuUds.Server.Basic

/-!
# Small response buffers

The dispatcher asks for three bytes of response capacity. Longer answers are left to the
handlers: four of them check the capacity, four ignore it. Two handlers get it wrong. The
seed answer of `h_security_access` takes six bytes whatever the capacity is, and
`h_session_control` stores the session before it finds that its answer does not fit. Both
theorems of this module say exactly when that happens, for every state, every request and
every choice of DID callbacks.
-/

namespace VecuUds

open Foundation

/-- Nothing is stored past the capacity, and a length that the caller may use is set and
does not pass it either. -/
structure WithinCapacity (cap : Nat) (r : Reply) : Prop where
  stored : r.resp.length ≤ cap
  length : r.rc = 0 ∨ r.rc = 1 → ∃ len ≤ cap, r.respLen = some len

section Replies

variable {cap : Nat}

theorem withinCapacity_negative (room : 3 ≤ cap) (sid : UInt8) (nrc : UdsNrc) :
    WithinCapacity cap (.negative sid nrc) :=
  ⟨room, fun _ => ⟨3, room, rfl⟩⟩

theorem withinCapacity_dropped (cap : Nat) : WithinCapacity cap .dropped := by
  refine ⟨Nat.zero_le cap, ?_⟩
  rintro (ok | suppressed)
  · exact absurd ok (by decide)
  · exact absurd suppressed (by decide)

theorem withinCapacity_positive {bytes : List UInt8} {len : Nat} (counted : bytes.length = len)
    (room : len ≤ cap) : WithinCapacity cap (.positive bytes len) :=
  ⟨counted ▸ room, fun _ => ⟨len, room, rfl⟩⟩

theorem withinCapacity_suppressible_iff {raw : UInt8} {bytes : List UInt8} {len : Nat}
    (counted : bytes.length = len) :
    WithinCapacity cap (.suppressible raw bytes len) ↔ len ≤ cap := by
  constructor
  · intro within
    exact counted ▸ within.stored
  · intro room
    exact ⟨counted ▸ room, fun _ => ⟨len, room, rfl⟩⟩

end Replies

/-! ## Stores past the end -/

section Handlers

variable {ρ ω : Type} (amb : Ambient) (s : VecuState ρ ω) (req : List UInt8) (cap : Nat)

/-- A seed request is answered with a seed, be it zero: the session allows it, and the ECU
is unlocked or not in a lock-out. -/
def GrantsSeed : Prop :=
  req.length = 2 ∧ byteAt req 0 = 0x27 ∧ subFunction (byteAt req 1) = 0x01 ∧
    isExtendedSession s = true ∧
      (1 ≤ s.security.unlockedLevel ∨ s.security.lockUntilMs = 0 ∨
        s.security.lockUntilMs ≤ amb.now)

theorem hSessionControl_within (room : 3 ≤ cap) :
    WithinCapacity cap (hSessionControl amb s req cap).2 := by
  simp only [hSessionControl]
  split_ifs with length known short
  · exact withinCapacity_negative room _ _
  · exact withinCapacity_dropped cap
  · exact (withinCapacity_suppressible_iff rfl).mpr (Nat.le_of_not_lt short)
  · exact withinCapacity_negative room _ _

theorem hEcuReset_within (room : 3 ≤ cap) : WithinCapacity cap (hEcuReset amb s req cap).2 := by
  simp only [hEcuReset]
  split_ifs
  · exact withinCapacity_negative room _ _
  · exact withinCapacity_negative room _ _
  · exact (withinCapacity_suppressible_iff rfl).mpr (Nat.le_of_succ_le room)

theorem hClearDtc_within (room : 3 ≤ cap) : WithinCapacity cap (hClearDtc amb s req cap).2 := by
  simp only [hClearDtc]
  split_ifs
  · exact withinCapacity_negative room _ _
  · exact withinCapacity_positive rfl (by omega)
  · exact withinCapacity_negative room _ _

theorem hReadDtc_within (room : 3 ≤ cap) : WithinCapacity cap (hReadDtc amb s req cap).2 := by
  simp only [hReadDtc]
  split_ifs with length sub exact long
  · exact withinCapacity_negative room _ _
  · exact withinCapacity_negative room _ _
  · exact withinCapacity_negative room _ _
  · exact withinCapacity_negative room _ _
  · refine (withinCapacity_suppressible_iff ?_).mpr (Nat.le_of_not_lt long)
    simp only [List.length_append, length_flatMap_encode, List.length_cons, List.length_nil]

theorem hReadDid_within [DidCallbacks ρ ω] (room : 3 ≤ cap) :
    WithinCapacity cap (hReadDid amb s req cap).2 := by
  simp only [hReadDid]
  split_ifs
  · exact withinCapacity_negative room _ _
  · cases didTableLookup s.dids (join16 (byteAt req 1) (byteAt req 2)) with
    | none => exact withinCapacity_negative room _ _
    | some e =>
        simp only
        cases didPayload s e with
        | bytes payload =>
            simp only
            split_ifs with long
            · exact withinCapacity_negative room _ _
            · refine withinCapacity_positive ?_ (Nat.le_of_not_lt long)
              simp only [List.length_append, List.length_cons, List.length_nil]
        | refused => exact withinCapacity_negative room _ _
        | overflow => exact withinCapacity_dropped cap

theorem hWriteDid_within [DidCallbacks ρ ω] (room : 3 ≤ cap) :
    WithinCapacity cap (hWriteDid amb s req cap).2 := by
  simp only [hWriteDid]
  split_ifs
  · exact withinCapacity_negative room _ _
  · cases didTableLookup s.dids (join16 (byteAt req 1) (byteAt req 2)) with
    | none => exact withinCapacity_negative room _ _
    | some e =>
        simp only
        cases e.write with
        | none => exact withinCapacity_negative room _ _
        | some fn =>
            simp only
            split_ifs
            · exact withinCapacity_negative room _ _
            · exact withinCapacity_negative room _ _
            · exact withinCapacity_negative room _ _
            · exact withinCapacity_positive rfl room

theorem hTesterPresent_within (room : 3 ≤ cap) :
    WithinCapacity cap (hTesterPresent amb s req cap).2 := by
  simp only [hTesterPresent]
  split_ifs
  · exact withinCapacity_negative room _ _
  · exact withinCapacity_negative room _ _
  · exact (withinCapacity_suppressible_iff rfl).mpr (Nat.le_of_succ_le room)

/-- Of the two branches of `h_security_access`, this one has the long answer. -/
theorem hRequestSeed_within_iff (room : 3 ≤ cap) (h : byteAt req 0 = 0x27)
    (gate : isExtendedSession s = true) :
    WithinCapacity cap (hRequestSeed amb s req).2 ↔ (GrantsSeed amb s req → 6 ≤ cap) := by
  simp only [hRequestSeed, GrantsSeed, h, gate]
  by_cases length : req.length = 2
  swap
  · have within := withinCapacity_negative room (byteAt req 0) .incorrectMessageLength
    simp [length, h ▸ within]
  by_cases sub : subFunction (byteAt req 1) = 0x01
  swap
  · have within := withinCapacity_negative room (byteAt req 0) .subFunctionNotSupported
    simp [length, sub, securityRequestSeed, levelSupported, h ▸ within]
  simp only [length, sub, ne_eq, not_true_eq_false, if_false, true_and]
  have effect := securityRequestSeed_effect amb.now amb.entropy s.security
  generalize securityRequestSeed amb.now amb.entropy s.security 0x01 = r at effect ⊢
  obtain ⟨t, result⟩ := r
  cases result with
  | alreadyUnlocked =>
      refine (withinCapacity_suppressible_iff rfl).trans ?_
      cases effect with
      | unlocked level => simp [level]
  | issued seed =>
      refine (withinCapacity_suppressible_iff rfl).trans ?_
      cases effect with
      | expired level armed due => simp [due]
      | fresh level unarmed => simp [unarmed]
  | refused nrc =>
      cases effect with
      | lockedOut level armed early =>
          have late : ¬ s.security.lockUntilMs ≤ amb.now := UInt64.not_le.mpr early
          have locked : ¬ 1 ≤ s.security.unlockedLevel := by rw [level]; decide
          have within := withinCapacity_negative room 0x27 .requiredTimeDelayNotExpired
          simp only [within, locked, armed, late, or_self, false_implies]

theorem hSendKey_within (room : 3 ≤ cap) : WithinCapacity cap (hSendKey amb s req).2 := by
  simp only [hSendKey]
  split_ifs
  · exact withinCapacity_negative room _ _
  · generalize securitySendKey _ _ _ _ _ = r
    obtain ⟨t, outcome⟩ := r
    cases outcome with
    | error nrc => exact withinCapacity_negative room _ _
    | ok accepted => exact (withinCapacity_suppressible_iff rfl).mpr (Nat.le_of_succ_le room)

/-- A request that is granted a seed takes the odd branch of `h_security_access`. -/
theorem hSecurityAccess_within_iff (room : 3 ≤ cap) (h : byteAt req 0 = 0x27) :
    WithinCapacity cap (hSecurityAccess amb s req cap).2 ↔
      (GrantsSeed amb s req → 6 ≤ cap) := by
  simp only [hSecurityAccess]
  split_ifs with short gate odd
  · have refused := withinCapacity_negative room (byteAt req 0) .incorrectMessageLength
    refine iff_of_true refused ?_
    intro grants
    exact absurd grants.1 (Nat.ne_of_lt short)
  · exact hRequestSeed_within_iff amb s req cap room h gate
  · refine iff_of_true (hSendKey_within amb s req cap room) ?_
    intro grants
    refine absurd ?_ odd
    rw [grants.2.2.1]
    rfl
  · have refused := withinCapacity_negative room (byteAt req 0) .serviceNotSupportedInSession
    refine iff_of_true refused ?_
    intro grants
    exact absurd grants.2.2.2.1 gate

end Handlers

section Dispatcher

variable {ρ ω : Type} [DidCallbacks ρ ω]

/-- **The buffer is overrun exactly by a seed answer that gets three to five bytes.** Every
other answer fits in what the caller offers: the dispatcher leaves room for a negative
response, and the longer answers of the other services are compared with the capacity. -/
theorem udsProcessRequest_within_iff (amb : Ambient) (s : VecuState ρ ω) (req : List UInt8)
    (cap : Nat) :
    WithinCapacity cap (udsProcessRequest amb s req cap).2 ↔
      ¬ (3 ≤ cap ∧ cap < 6 ∧ GrantsSeed amb s req) := by
  by_cases dropped : req.length = 0 ∨ cap < 3
  · rw [udsProcessRequest, if_pos dropped]
    refine iff_of_true (withinCapacity_dropped cap) ?_
    rintro ⟨room, small, grants⟩
    have length := grants.1
    omega
  have room : 3 ≤ cap := by omega
  have other : ∀ {sid : UInt8}, byteAt req 0 = sid → sid ≠ 0x27 →
      ¬ (3 ≤ cap ∧ cap < 6 ∧ GrantsSeed amb s req) := by
    rintro sid code service ⟨_, _, grants⟩
    exact service (code ▸ grants.2.1)
  simp only [udsProcessRequest, dropped, if_false]
  generalize same : List.find? _ _ = found
  have row : DispatchRow (byteAt req 0) found := same ▸ dispatch_row _
  cases row with
  | sessionControl code =>
      exact iff_of_true (hSessionControl_within amb s req cap room) (other code (by decide))
  | ecuReset code =>
      exact iff_of_true (hEcuReset_within amb s req cap room) (other code (by decide))
  | clearDtc code =>
      exact iff_of_true (hClearDtc_within amb s req cap room) (other code (by decide))
  | readDtc code =>
      exact iff_of_true (hReadDtc_within amb s req cap room) (other code (by decide))
  | readDid code =>
      exact iff_of_true (hReadDid_within amb s req cap room) (other code (by decide))
  | securityAccess code =>
      refine (hSecurityAccess_within_iff amb s req cap room code).trans ?_
      constructor
      · rintro fits ⟨_, small, grants⟩
        exact absurd (fits grants) (Nat.not_le.mpr small)
      · intro safe grants
        exact Nat.not_lt.mp fun small => safe ⟨room, small, grants⟩
  | writeDid code =>
      exact iff_of_true (hWriteDid_within amb s req cap room) (other code (by decide))
  | testerPresent code =>
      exact iff_of_true (hTesterPresent_within amb s req cap room) (other code (by decide))
  | unsupported unknown =>
      exact iff_of_true (withinCapacity_negative room _ _) (other rfl (unknown .securityAccess))

/-- In the extended session, a caller that offers three bytes finds six stored. -/
theorem serverRun_overruns :
    ¬ ∀ (boot : UInt64) (past : List ServerInput) (amb : Ambient) (req : List UInt8) (cap : Nat),
      req ≠ [] → WithinCapacity cap (udsProcessRequest amb (serverRun boot past) req cap).2 := by
  intro claim
  have within := claim 0 [.requestAt 0 [0x10, 0x03]] (.still 0) [0x27, 0x01] 3 (by decide)
  exact absurd within.stored (by decide)

end Dispatcher

/-! ## Dropped requests -/

section Dropped

variable {ρ ω : Type} (amb : Ambient) (s : VecuState ρ ω) (req : List UInt8) (cap : Nat)

/-- A session request with a known session that differs from the current one, or that comes
at another clock reading than the last refresh. -/
def MovesSession : Prop :=
  req.length = 2 ∧ byteAt req 0 = 0x10 ∧
    (subFunction (byteAt req 1) = udsSessionDefault ∨
      subFunction (byteAt req 1) = udsSessionProgramming ∨
      subFunction (byteAt req 1) = udsSessionExtended) ∧
    (s.session ≠ subFunction (byteAt req 1) ∨ s.lastTesterPresentMs ≠ amb.now)

/-- A call that returns `-1` leaves the state alone. -/
def DropsCleanly (s : VecuState ρ ω) (r : VecuState ρ ω × Reply) : Prop := r.2.rc = -1 → r.1 = s

variable {s' : VecuState ρ ω}

theorem dropsCleanly_self (reply : Reply) : DropsCleanly s (s, reply) := fun _ => rfl

theorem dropsCleanly_answered {reply : Reply} (answered : reply.rc = 0) :
    DropsCleanly s (s', reply) := by
  intro dropped
  exact absurd (answered.symm.trans dropped) (by decide)

theorem dropsCleanly_suppressible (raw : UInt8) (bytes : List UInt8) (len : Nat) :
    DropsCleanly s (s', .suppressible raw bytes len) := by
  simp only [DropsCleanly, Reply.suppressible]
  split
  · intro suppressed
    exact absurd suppressed (by decide)
  · intro answered
    exact absurd answered (by decide)

theorem dropsCleanly_dropped_iff : DropsCleanly s (s', .dropped) ↔ s' = s := by
  constructor
  · intro clean
    exact clean rfl
  · intro same _
    exact same

theorem vecuSetSession_eq_self_iff {now : UInt64} {session : UInt8} :
    vecuSetSession now s session = s ↔ s.session = session ∧ s.lastTesterPresentMs = now := by
  constructor
  · intro same
    rw [← same]
    exact ⟨rfl, rfl⟩
  · rintro ⟨rfl, rfl⟩
    rfl

/-- The only handler that has stored something when it finds the buffer too small. -/
theorem hSessionControl_dropsCleanly_iff (h : byteAt req 0 = 0x10) :
    DropsCleanly s (hSessionControl amb s req cap) ↔ (MovesSession amb s req → 6 ≤ cap) := by
  simp only [hSessionControl]
  split_ifs with length known small
  · refine iff_of_true (dropsCleanly_self s _) ?_
    intro moves
    exact absurd moves.1 length
  · rw [dropsCleanly_dropped_iff, vecuSetSession_eq_self_iff]
    constructor
    · rintro ⟨same, current⟩ ⟨_, _, _, session | clock⟩
      · exact absurd same session
      · exact absurd current clock
    · intro fits
      by_contra moved
      have request : req.length = 2 := not_not.mp length
      exact absurd (fits ⟨request, h, known, not_and_or.mp moved⟩) (Nat.not_le.mpr small)
  · exact iff_of_true (dropsCleanly_suppressible s _ _ _) fun _ => Nat.le_of_not_lt small
  · refine iff_of_true (dropsCleanly_self s _) ?_
    intro moves
    exact absurd moves.2.2.1 known

theorem hEcuReset_dropsCleanly : DropsCleanly s (hEcuReset amb s req cap) := by
  simp only [hEcuReset]
  split_ifs
  · exact dropsCleanly_self s _
  · exact dropsCleanly_self s _
  · exact dropsCleanly_suppressible s _ _ _

theorem hClearDtc_dropsCleanly : DropsCleanly s (hClearDtc amb s req cap) := by
  simp only [hClearDtc]
  split_ifs
  · exact dropsCleanly_self s _
  · exact dropsCleanly_answered s rfl
  · exact dropsCleanly_self s _

theorem hReadDtc_dropsCleanly : DropsCleanly s (hReadDtc amb s req cap) := by
  simp only [hReadDtc]
  split_ifs <;> exact dropsCleanly_self s _

theorem hReadDid_dropsCleanly [DidCallbacks ρ ω] : DropsCleanly s (hReadDid amb s req cap) := by
  simp only [hReadDid]
  split_ifs
  · exact dropsCleanly_self s _
  · cases didTableLookup s.dids (join16 (byteAt req 1) (byteAt req 2)) with
    | none => exact dropsCleanly_self s _
    | some e =>
        simp only
        cases didPayload s e with
        | bytes payload =>
            simp only
            split_ifs <;> exact dropsCleanly_self s _
        | refused => exact dropsCleanly_self s _
        | overflow => exact dropsCleanly_self s _

theorem hSecurityAccess_dropsCleanly : DropsCleanly s (hSecurityAccess amb s req cap) := by
  simp only [hSecurityAccess, hRequestSeed, hSendKey]
  split_ifs
  · exact dropsCleanly_self s _
  · exact dropsCleanly_self s _
  · generalize securityRequestSeed _ _ _ _ = r
    obtain ⟨t, result⟩ := r
    cases result with
    | issued seed => exact dropsCleanly_suppressible s _ _ _
    | alreadyUnlocked => exact dropsCleanly_suppressible s _ _ _
    | refused nrc => exact dropsCleanly_answered s rfl
  · exact dropsCleanly_self s _
  · generalize securitySendKey _ _ _ _ _ = r
    obtain ⟨t, outcome⟩ := r
    cases outcome with
    | ok accepted => exact dropsCleanly_suppressible s _ _ _
    | error nrc => exact dropsCleanly_answered s rfl
  · exact dropsCleanly_self s _

theorem hWriteDid_dropsCleanly [DidCallbacks ρ ω] :
    DropsCleanly s (hWriteDid amb s req cap) := by
  simp only [hWriteDid]
  split_ifs
  · exact dropsCleanly_self s _
  · cases didTableLookup s.dids (join16 (byteAt req 1) (byteAt req 2)) with
    | none => exact dropsCleanly_self s _
    | some e =>
        simp only
        cases e.write with
        | none => exact dropsCleanly_self s _
        | some fn =>
            simp only
            split_ifs
            · exact dropsCleanly_self s _
            · exact dropsCleanly_self s _
            · exact dropsCleanly_answered s rfl
            · exact dropsCleanly_answered s rfl

theorem hTesterPresent_dropsCleanly : DropsCleanly s (hTesterPresent amb s req cap) := by
  simp only [hTesterPresent]
  split_ifs
  · exact dropsCleanly_self s _
  · exact dropsCleanly_self s _
  · exact dropsCleanly_suppressible s _ _ _

/-- **A dropped request has an effect exactly when it moves the session and its answer gets
three to five bytes.** Every other exit with `-1` comes before the first store. -/
theorem udsProcessRequest_dropsCleanly_iff [DidCallbacks ρ ω] :
    DropsCleanly s (udsProcessRequest amb s req cap) ↔
      ¬ (3 ≤ cap ∧ cap < 6 ∧ MovesSession amb s req) := by
  by_cases dropped : req.length = 0 ∨ cap < 3
  · rw [udsProcessRequest, if_pos dropped]
    refine iff_of_true (dropsCleanly_self s _) ?_
    rintro ⟨room, small, moves⟩
    have length := moves.1
    omega
  have room : 3 ≤ cap := by omega
  have other : ∀ {sid : UInt8}, byteAt req 0 = sid → sid ≠ 0x10 →
      ¬ (3 ≤ cap ∧ cap < 6 ∧ MovesSession amb s req) := by
    rintro sid code service ⟨_, _, moves⟩
    exact service (code ▸ moves.2.1)
  simp only [udsProcessRequest, dropped, if_false]
  generalize same : List.find? _ _ = found
  have row : DispatchRow (byteAt req 0) found := same ▸ dispatch_row _
  cases row with
  | sessionControl code =>
      refine (hSessionControl_dropsCleanly_iff amb s req cap code).trans ?_
      constructor
      · rintro fits ⟨_, small, moves⟩
        exact absurd (fits moves) (Nat.not_le.mpr small)
      · intro safe moves
        exact Nat.not_lt.mp fun small => safe ⟨room, small, moves⟩
  | ecuReset code =>
      exact iff_of_true (hEcuReset_dropsCleanly amb s req cap) (other code (by decide))
  | clearDtc code =>
      exact iff_of_true (hClearDtc_dropsCleanly amb s req cap) (other code (by decide))
  | readDtc code =>
      exact iff_of_true (hReadDtc_dropsCleanly amb s req cap) (other code (by decide))
  | readDid code =>
      exact iff_of_true (hReadDid_dropsCleanly amb s req cap) (other code (by decide))
  | securityAccess code =>
      exact iff_of_true (hSecurityAccess_dropsCleanly amb s req cap) (other code (by decide))
  | writeDid code =>
      exact iff_of_true (hWriteDid_dropsCleanly amb s req cap) (other code (by decide))
  | testerPresent code =>
      exact iff_of_true (hTesterPresent_dropsCleanly amb s req cap) (other code (by decide))
  | unsupported unknown =>
      exact iff_of_true (dropsCleanly_self s _) (other rfl (unknown .diagnosticSessionControl))

/-- A session request that is dropped for want of buffer has opened the session. -/
theorem serverRun_drops_uncleanly :
    ¬ ∀ (boot : UInt64) (past : List ServerInput) (amb : Ambient) (req : List UInt8) (cap : Nat),
      DropsCleanly (serverRun boot past) (udsProcessRequest amb (serverRun boot past) req cap) := by
  intro claim
  have clean := claim 0 [] (.still 0) [0x10, 0x03] 3 (by decide)
  have session := congrArg VecuState.session clean
  exact absurd session (by decide)

end Dropped

end VecuUds
