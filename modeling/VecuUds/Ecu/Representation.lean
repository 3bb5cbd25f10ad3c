import VecuUds.Ecu.Security

/-!
# The security state as a representation

`SecurityState.Valid` is the representation invariant of the security state: the
failure counter, the deadline and the seed flag determine each other. Every call of the
security module preserves it, and so do the two writers outside the module, the reset
and the relock. It needs a clock that stays clear of the 64-bit wrap of the deadline.
-/

namespace VecuUds

/-- The relations between the fields of a reachable security state. -/
structure SecurityState.Valid (s : SecurityState) : Prop where
  level : s.unlockedLevel ≤ 1
  fails : s.failCount ≤ 3
  armed : s.lockUntilMs ≠ 0 ↔ s.failCount = 3
  locked : s.lockUntilMs ≠ 0 → s.unlockedLevel = 0 ∧ s.seedIssued = false
  unlocked : s.unlockedLevel = 1 → s.seedIssued = false
  seed : s.seedIssued = true → s.pendingSeed ≠ 0

/-- A reading from which the lock-out deadline does not wrap. -/
def ClearOfWrap (t : UInt64) : Prop := t.toNat + 10000 < 2 ^ 64

instance (t : UInt64) : Decidable (ClearOfWrap t) := inferInstanceAs (Decidable (_ < _))

theorem toNat_deadline {t : UInt64} (clear : ClearOfWrap t) :
    (t + securityLockDurationMs).toNat = t.toNat + 10000 := by
  rw [UInt64.toNat_add]
  exact Nat.mod_eq_of_lt clear

theorem deadline_ne_zero {t : UInt64} (clear : ClearOfWrap t) : t + securityLockDurationMs ≠ 0 := by
  intro zero
  have value := toNat_deadline clear
  rw [zero] at value
  change 0 = _ at value
  omega

namespace SecurityState.Valid

variable {s t : SecurityState}

theorem init : securityInit.Valid := by
  constructor <;> decide

/-- While a seed is out, no lock-out is armed and fewer than three keys failed. -/
theorem of_issued (valid : s.Valid) (issued : s.seedIssued = true) :
    s.unlockedLevel = 0 ∧ s.lockUntilMs = 0 ∧ s.failCount < 3 := by
  have unarmed : s.lockUntilMs = 0 := by
    by_contra armed
    exact absurd ((valid.locked armed).2.symm.trans issued) (by decide)
  have level : s.unlockedLevel ≠ 1 := fun one =>
    absurd ((valid.unlocked one).symm.trans issued) (by decide)
  have fails : s.failCount ≠ 3 := by
    intro three
    exact valid.armed.mpr three unarmed
  have := valid.level
  have := valid.fails
  exact ⟨by grind, unarmed, by grind⟩

theorem seedEffect (valid : s.Valid) {now : UInt64} {entropy : Option UInt32} {r : SeedResult}
    (effect : SeedEffect now entropy s t r) : t.Valid := by
  cases effect with
  | unlocked level =>
      exact ⟨valid.level, valid.fails, valid.armed, fun armed => ⟨(valid.locked armed).1, rfl⟩,
        fun _ => rfl, fun issued => absurd issued Bool.false_ne_true⟩
  | lockedOut => exact valid
  | expired level =>
      exact ⟨valid.level, (by decide : (0 : UInt8) ≤ 3), by simp, fun armed => absurd rfl armed,
        fun one => absurd (level.symm.trans one) (by decide), fun _ => drawSeed_ne_zero _⟩
  | fresh level unarmed =>
      exact ⟨valid.level, valid.fails, valid.armed, fun armed => absurd unarmed armed,
        fun one => absurd (level.symm.trans one) (by decide), fun _ => drawSeed_ne_zero _⟩

theorem keyEffect (valid : s.Valid) {now later : UInt64} {key : UInt32} {r : Except UdsNrc Unit}
    (clear : ClearOfWrap later) (effect : KeyEffect now later s key t r) : t.Valid := by
  cases effect with
  | outOfSequence => exact valid
  | lockedOut => exact valid
  | accepted issued =>
      obtain ⟨-, unarmed, -⟩ := valid.of_issued issued
      exact ⟨(by decide : (1 : UInt8) ≤ 1), (by decide : (0 : UInt8) ≤ 3), by simp [unarmed],
        fun armed => absurd unarmed armed,
        fun _ => rfl, fun issued => absurd issued Bool.false_ne_true⟩
  | invalid issued wrong few =>
      obtain ⟨level, unarmed, fails⟩ := valid.of_issued issued
      have below : s.failCount + 1 < 3 := few
      exact ⟨valid.level, by grind, by grind, fun armed => absurd unarmed armed,
        fun _ => rfl, fun issued => absurd issued Bool.false_ne_true⟩
  | exceeded issued wrong many =>
      obtain ⟨level, unarmed, fails⟩ := valid.of_issued issued
      have reached : 3 ≤ s.failCount + 1 := many
      have three : s.failCount + 1 = 3 := by grind
      have armed := deadline_ne_zero clear
      exact ⟨valid.level, by grind, by simp [armed, three], fun _ => ⟨level, rfl⟩,
        fun _ => rfl, fun issued => absurd issued Bool.false_ne_true⟩

theorem reset (s : SecurityState) : s.reset.Valid := by
  constructor <;> simp [SecurityState.reset]

theorem relock (valid : s.Valid) : s.relock.Valid :=
  ⟨by simp [SecurityState.relock], valid.fails, valid.armed, fun _ => ⟨rfl, rfl⟩,
    fun _ => rfl, fun issued => absurd issued Bool.false_ne_true⟩

/-- `security_request_seed` preserves the invariant, for every level. -/
theorem requestSeed (valid : s.Valid) (now : UInt64) (entropy : Option UInt32) (level : UInt8) :
    (securityRequestSeed now entropy s level).1.Valid := by
  by_cases supported : level = 0x01
  · subst supported
    exact valid.seedEffect (securityRequestSeed_effect now entropy s)
  · simpa [securityRequestSeed, levelSupported, supported] using valid

/-- `security_send_key` preserves the invariant, for every level. -/
theorem sendKey (valid : s.Valid) (now : UInt64) {later : UInt64} (clear : ClearOfWrap later)
    (level : UInt8) (key : UInt32) : (securitySendKey now later s level key).1.Valid := by
  by_cases supported : level = 0x01
  · subst supported
    exact valid.keyEffect clear (securitySendKey_effect now later s key)
  · simpa [securitySendKey, levelSupported, supported] using valid

/-- The lock-out check of `security_send_key` never fires: an issued seed excludes it. -/
theorem sendKey_not_delayed (valid : s.Valid) (now later : UInt64) (level : UInt8) (key : UInt32) :
    (securitySendKey now later s level key).2 ≠ .error .requiredTimeDelayNotExpired := by
  intro delayed
  by_cases supported : level = 0x01
  · subst supported
    have effect := securitySendKey_effect now later s key
    rw [delayed] at effect
    generalize (securitySendKey now later s 0x01 key).1 = t at effect
    cases effect with
    | lockedOut issued armed => exact armed (valid.of_issued issued).2.1
  · simp [securitySendKey, levelSupported, supported] at delayed

end SecurityState.Valid

end VecuUds
