import VecuUds.Ecu.Types

/-!
# The SecurityAccess state machine

`security.c` function by function. Each call runs under the mutex of the security
state, so a call is one transition. Time readings and the outcome of `getrandom` are
arguments. Deadlines are 64-bit sums and wrap like the source's.
-/

namespace VecuUds

/-- `SECURITY_KEY_CONSTANT`. -/
def securityKeyConstant : UInt32 := 0xDEADBEEF

/-- `SECURITY_MAX_FAILS`. -/
def securityMaxFails : UInt8 := 3

/-- `SECURITY_LOCK_DURATION_MS`. -/
def securityLockDurationMs : UInt64 := 10000

/-- `security_state_t` without its mutex. Level zero is locked, and a zero
`lockUntilMs` means that no lock-out is armed. -/
structure SecurityState where
  unlockedLevel : UInt8
  pendingSeed : UInt32
  seedIssued : Bool
  failCount : UInt8
  lockUntilMs : UInt64
  deriving DecidableEq, Repr

/-- `security_init`. -/
def securityInit : SecurityState := ⟨0, 0, false, 0, 0⟩

/-- `level_supported`. -/
def levelSupported (level : UInt8) : Bool := level = 0x01

/-- The three results of `security_request_seed`: return code 0 with a fresh seed,
return code 1 with the zero seed, and `-1` with a response code. -/
inductive SeedResult where
  | issued (seed : UInt32)
  | alreadyUnlocked
  | refused (nrc : UdsNrc)
  deriving DecidableEq, Repr

/-- The seed that the entropy source yields, never zero. -/
def drawSeed (entropy : Option UInt32) : UInt32 :=
  let seed := entropy.getD 0xA5A5A5A5
  if seed = 0 then 0xA5A5A5A5 else seed

/-- The last part of `security_request_seed`, past the lock-out check. -/
def issueSeed (entropy : Option UInt32) (s : SecurityState) : SecurityState × SeedResult :=
  let seed := drawSeed entropy
  ({ s with pendingSeed := seed, seedIssued := true }, .issued seed)

/-- `security_request_seed`. -/
def securityRequestSeed (now : UInt64) (entropy : Option UInt32) (s : SecurityState)
    (level : UInt8) : SecurityState × SeedResult :=
  if ¬ levelSupported level then (s, .refused .subFunctionNotSupported)
  else if s.unlockedLevel ≥ level then ({ s with seedIssued := false }, .alreadyUnlocked)
  else if s.lockUntilMs ≠ 0 then
    if now < s.lockUntilMs then (s, .refused .requiredTimeDelayNotExpired)
    else issueSeed entropy { s with lockUntilMs := 0, failCount := 0 }
  else issueSeed entropy s

/-- `security_send_key`. The clock is read by the lock-out check and again when a
failure arms the next lock-out. -/
def securitySendKey (now later : UInt64) (s : SecurityState) (level : UInt8) (key : UInt32) :
    SecurityState × Except UdsNrc Unit :=
  if ¬ levelSupported level then (s, .error .subFunctionNotSupported)
  else if ¬ s.seedIssued then (s, .error .requestSequenceError)
  else if s.lockUntilMs ≠ 0 ∧ now < s.lockUntilMs then (s, .error .requiredTimeDelayNotExpired)
  else
    let expected := s.pendingSeed ^^^ securityKeyConstant
    let s := { s with seedIssued := false }
    if key = expected then ({ s with unlockedLevel := level, failCount := 0 }, .ok ())
    else
      let s := { s with failCount := s.failCount + 1 }
      if s.failCount ≥ securityMaxFails then
        ({ s with lockUntilMs := later + securityLockDurationMs },
          .error .exceededNumberOfAttempts)
      else (s, .error .invalidKey)

/-- `security_is_unlocked`. -/
def securityIsUnlocked (s : SecurityState) (level : UInt8) : Bool := s.unlockedLevel ≥ level

/-- The four stores of `h_ecu_reset` to the security state. The pending seed stays. -/
def SecurityState.reset (s : SecurityState) : SecurityState :=
  { s with unlockedLevel := 0, seedIssued := false, failCount := 0, lockUntilMs := 0 }

/-- The two stores of the S3 thread to the security state. -/
def SecurityState.relock (s : SecurityState) : SecurityState :=
  { s with unlockedLevel := 0, seedIssued := false }

/-! ## What a call can do -/

/-- Every outcome of `security_request_seed` for the supported level, with the state
it leaves. Only the two issuing outcomes arm a seed. -/
inductive SeedEffect (now : UInt64) (entropy : Option UInt32) (s : SecurityState) :
    SecurityState → SeedResult → Prop where
  | unlocked (level : 1 ≤ s.unlockedLevel) :
      SeedEffect now entropy s { s with seedIssued := false } .alreadyUnlocked
  | lockedOut (level : s.unlockedLevel = 0) (armed : s.lockUntilMs ≠ 0)
      (early : now < s.lockUntilMs) :
      SeedEffect now entropy s s (.refused .requiredTimeDelayNotExpired)
  | expired (level : s.unlockedLevel = 0) (armed : s.lockUntilMs ≠ 0)
      (due : s.lockUntilMs ≤ now) :
      SeedEffect now entropy s
        { s with
          pendingSeed := drawSeed entropy, seedIssued := true, failCount := 0, lockUntilMs := 0 }
        (.issued (drawSeed entropy))
  | fresh (level : s.unlockedLevel = 0) (unarmed : s.lockUntilMs = 0) :
      SeedEffect now entropy s
        { s with pendingSeed := drawSeed entropy, seedIssued := true }
        (.issued (drawSeed entropy))

/-- Every outcome of `security_send_key` for the supported level. The last three
judge the key against the issued seed and consume the seed. -/
inductive KeyEffect (now later : UInt64) (s : SecurityState) (key : UInt32) :
    SecurityState → Except UdsNrc Unit → Prop where
  | outOfSequence (unissued : s.seedIssued = false) :
      KeyEffect now later s key s (.error .requestSequenceError)
  | lockedOut (issued : s.seedIssued = true) (armed : s.lockUntilMs ≠ 0)
      (early : now < s.lockUntilMs) :
      KeyEffect now later s key s (.error .requiredTimeDelayNotExpired)
  | accepted (issued : s.seedIssued = true)
      (right : key = s.pendingSeed ^^^ securityKeyConstant) :
      KeyEffect now later s key
        { s with seedIssued := false, unlockedLevel := 1, failCount := 0 } (.ok ())
  | invalid (issued : s.seedIssued = true)
      (wrong : key ≠ s.pendingSeed ^^^ securityKeyConstant)
      (few : s.failCount + 1 < securityMaxFails) :
      KeyEffect now later s key
        { s with seedIssued := false, failCount := s.failCount + 1 } (.error .invalidKey)
  | exceeded (issued : s.seedIssued = true)
      (wrong : key ≠ s.pendingSeed ^^^ securityKeyConstant)
      (many : securityMaxFails ≤ s.failCount + 1) :
      KeyEffect now later s key
        { s with
          seedIssued := false, failCount := s.failCount + 1,
          lockUntilMs := later + securityLockDurationMs }
        (.error .exceededNumberOfAttempts)

private theorem unlockedLevel_eq_zero {level : UInt8} (locked : ¬ level ≥ 0x01) : level = 0 := by
  have below : level.toNat < 1 := UInt8.lt_iff_toNat_lt.mp (UInt8.not_le.mp locked)
  apply UInt8.toNat_inj.mp
  change level.toNat = 0
  omega

theorem securityRequestSeed_effect (now : UInt64) (entropy : Option UInt32) (s : SecurityState) :
    SeedEffect now entropy s (securityRequestSeed now entropy s 0x01).1
      (securityRequestSeed now entropy s 0x01).2 := by
  simp only [securityRequestSeed, levelSupported]
  by_cases unlocked : s.unlockedLevel ≥ 0x01
  · have effect : SeedEffect now entropy s _ _ := .unlocked unlocked
    simpa [unlocked] using effect
  · have level := unlockedLevel_eq_zero unlocked
    by_cases armed : s.lockUntilMs = 0
    · have effect : SeedEffect now entropy s _ _ := .fresh level armed
      simpa [unlocked, armed, issueSeed] using effect
    · by_cases early : now < s.lockUntilMs
      · have effect : SeedEffect now entropy s _ _ := .lockedOut level armed early
        simpa [unlocked, armed, early] using effect
      · have effect : SeedEffect now entropy s _ _ :=
          .expired level armed (UInt64.not_lt.mp early)
        simpa [unlocked, armed, early, issueSeed] using effect

theorem securitySendKey_effect (now later : UInt64) (s : SecurityState) (key : UInt32) :
    KeyEffect now later s key (securitySendKey now later s 0x01 key).1
      (securitySendKey now later s 0x01 key).2 := by
  simp only [securitySendKey, levelSupported]
  by_cases issued : s.seedIssued = true
  · by_cases locked : s.lockUntilMs ≠ 0 ∧ now < s.lockUntilMs
    · have effect : KeyEffect now later s key _ _ := .lockedOut issued locked.1 locked.2
      simpa [issued, locked] using effect
    · by_cases right : key = s.pendingSeed ^^^ securityKeyConstant
      · simpa [issued, locked, right] using KeyEffect.accepted issued right
      · by_cases many : securityMaxFails ≤ s.failCount + 1
        · simpa [issued, locked, right, many] using KeyEffect.exceeded issued right many
        · simpa [issued, locked, right, many] using
            KeyEffect.invalid issued right (UInt8.not_le.mp many)
  · have unissued : s.seedIssued = false := by simpa using issued
    simpa [unissued] using KeyEffect.outOfSequence unissued

theorem drawSeed_ne_zero (entropy : Option UInt32) : drawSeed entropy ≠ 0 := by
  simp only [drawSeed]
  split
  · decide
  · assumption

end VecuUds
