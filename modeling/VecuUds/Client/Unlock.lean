import VecuUds.Server.Basic

/-!
# Unlocking from the tester's side

`security_algo` of the Python client, on unbounded integers and byte strings, and the
handshake it takes part in: the ECU draws a seed, the client computes a key from the
bytes it received, and the ECU judges the key bytes that come back. Three conversions of
byte order and two copies of the constant have to agree for every seed and every key.
-/

namespace VecuUds

open Foundation

/-- `security_algo`. `none` stands for an exception: a seed that is not four bytes long. -/
def securityAlgo (_level : Nat) (seed : List UInt8) : Option (List UInt8) :=
  if seed.length ≠ 4 then none
  else
    let s := fromBytesBig seed
    let k := s ^^^ 0xDEADBEEF
    toBytesBig 4 k

/-- The client answers every seed with the key that the ECU expects. -/
theorem securityAlgo_split32 (level : Nat) (seed : UInt32) :
    securityAlgo level (split32 seed) = some (split32 (seed ^^^ securityKeyConstant)) := by
  have key : fromBytesBig (split32 seed) ^^^ 0xDEADBEEF = (seed ^^^ securityKeyConstant).toNat := by
    rw [fromBytesBig_split32, UInt32.toNat_xor]
    rfl
  simp only [securityAlgo, length_split32, ne_eq, not_true_eq_false, if_false, key,
    toBytesBig_toNat]

/-- Key bytes are the client's answer exactly if they spell the expected key. -/
theorem securityAlgo_eq_some {level : Nat} {seed : UInt32} {k₀ k₁ k₂ k₃ : UInt8} :
    securityAlgo level (split32 seed) = some [k₀, k₁, k₂, k₃] ↔
      join32 k₀ k₁ k₂ k₃ = seed ^^^ securityKeyConstant := by
  rw [securityAlgo_split32, ← split32_join32 k₀ k₁ k₂ k₃, Option.some.injEq]
  constructor
  · intro same
    exact (split32_inj same).symm
  · intro same
    rw [same]

section Handshake

variable {s : EcuState} {amb : Ambient}

/-- The reply to `27 01`, by the result of the security module. -/
def seedReply : SeedResult → Reply
  | .refused nrc => .negative 0x27 nrc
  | .alreadyUnlocked => .suppressible 0x01 ([0x67, 0x01] ++ split32 0) 6
  | .issued seed => .suppressible 0x01 ([0x67, 0x01] ++ split32 seed) 6

/-- The reply to `27 02`, by the result of the security module. -/
def keyReply : Except UdsNrc Unit → Reply
  | .error nrc => .negative 0x27 nrc
  | .ok () => .suppressible 0x02 [0x67, 0x02] 2

theorem serverStep_requestSeed (gate : isExtendedSession s = true) :
    serverStep s ⟨.request [0x27, 0x01], amb⟩ =
      ({ s with security := (securityRequestSeed amb.now amb.entropy s.security 0x01).1 },
        some (seedReply (securityRequestSeed amb.now amb.entropy s.security 0x01).2)) := by
  generalize request : ([0x27, 0x01] : List UInt8) = req
  have sid : byteAt req 0 = 0x27 := by rw [← request]; rfl
  have length : req.length = 2 := by rw [← request]; rfl
  have raw : byteAt req 1 = 0x01 := by rw [← request]; rfl
  have sub : subFunction 0x01 = 0x01 := rfl
  have odd : (0x01 : UInt8) &&& 0x01 = 0x01 := rfl
  have long : ¬ (2 : Nat) < 2 := by decide
  simp only [serverStep, udsProcessRequest_securityAccess amb s sid, hSecurityAccess, hRequestSeed,
    length, long, gate, raw, sub, odd, sid, ne_eq, not_true_eq_false, if_true, if_false]
  cases (securityRequestSeed amb.now amb.entropy s.security 0x01).2 <;> rfl

theorem serverStep_sendKey (gate : isExtendedSession s = true) (k₀ k₁ k₂ k₃ : UInt8) :
    serverStep s ⟨.request [0x27, 0x02, k₀, k₁, k₂, k₃], amb⟩ =
      ({ s with
          security :=
            (securitySendKey amb.now amb.later s.security 0x01 (join32 k₀ k₁ k₂ k₃)).1 },
        some (keyReply
          (securitySendKey amb.now amb.later s.security 0x01 (join32 k₀ k₁ k₂ k₃)).2)) := by
  generalize request : [0x27, 0x02, k₀, k₁, k₂, k₃] = req
  have sid : byteAt req 0 = 0x27 := by rw [← request]; rfl
  have length : req.length = 6 := by rw [← request]; rfl
  have raw : byteAt req 1 = 0x02 := by rw [← request]; rfl
  have sub : subFunction 0x02 = 0x02 := rfl
  have key : join32 (byteAt req 2) (byteAt req 3) (byteAt req 4) (byteAt req 5) =
      join32 k₀ k₁ k₂ k₃ := by rw [← request]; rfl
  have even : ¬ (0x02 : UInt8) &&& 0x01 = 0x01 := by decide
  have level : (0x02 : UInt8) - 1 = 0x01 := rfl
  have long : ¬ (6 : Nat) < 2 := by decide
  simp only [serverStep, udsProcessRequest_securityAccess amb s sid, hSecurityAccess, hSendKey,
    length, long, gate, raw, sub, even, level, key, sid, ne_eq, not_true_eq_false, if_false]
  cases (securitySendKey amb.now amb.later s.security 0x01 (join32 k₀ k₁ k₂ k₃)).2 <;> rfl

/-- A lock-out is on at this clock reading. -/
def InLockout (t : SecurityState) (now : UInt64) : Prop :=
  t.lockUntilMs ≠ 0 ∧ now < t.lockUntilMs

instance (t : SecurityState) (now : UInt64) : Decidable (InLockout t now) :=
  inferInstanceAs (Decidable (_ ∧ _))

/-- A locked ECU outside a lock-out hands out the seed it draws and awaits a key for it. -/
theorem securityRequestSeed_locked {t : SecurityState} {now : UInt64} (entropy : Option UInt32)
    (locked : t.unlockedLevel = 0) (clear : ¬ InLockout t now) :
    ∃ fails, securityRequestSeed now entropy t 0x01 =
      (⟨0, drawSeed entropy, true, fails, 0⟩, .issued (drawSeed entropy)) := by
  have effect := securityRequestSeed_effect now entropy t
  generalize securityRequestSeed now entropy t 0x01 = r at effect ⊢
  obtain ⟨after, result⟩ := r
  dsimp only at effect
  cases effect with
  | unlocked level => exact absurd (locked ▸ level) (by decide)
  | lockedOut level armed early => exact absurd ⟨armed, early⟩ clear
  | expired => exact ⟨0, by rw [locked]⟩
  | fresh level unarmed => exact ⟨t.failCount, by rw [locked, unarmed]⟩

/-- With a seed out and no lock-out, a key is accepted exactly if it is the expected one. -/
theorem securitySendKey_accepts_iff (seed key : UInt32) (fails : UInt8) (now later : UInt64) :
    let r := securitySendKey now later ⟨0, seed, true, fails, 0⟩ 0x01 key
    (r.2 = .ok () ∧ r.1.unlockedLevel = 1) ↔ key = seed ^^^ securityKeyConstant := by
  intro r
  have effect : KeyEffect now later _ key r.1 r.2 := securitySendKey_effect now later _ key
  generalize r.1 = after at effect ⊢
  generalize r.2 = result at effect ⊢
  cases effect with
  | outOfSequence unissued => cases unissued
  | lockedOut issued armed => exact absurd rfl armed
  | accepted issued right => exact ⟨fun _ => right, fun _ => ⟨rfl, rfl⟩⟩
  | invalid issued wrong =>
      constructor
      · rintro ⟨accepted, -⟩
        cases accepted
      · intro same
        exact absurd same wrong
  | exceeded issued wrong =>
      constructor
      · rintro ⟨accepted, -⟩
        cases accepted
      · intro same
        exact absurd same wrong

theorem keyReply_positive {r : Except UdsNrc Unit} :
    keyReply r = .suppressible 0x02 [0x67, 0x02] 2 ↔ r = .ok () := by
  cases r with
  | ok value => exact ⟨fun _ => rfl, fun _ => rfl⟩
  | error nrc =>
      have other : Reply.negative 0x27 nrc ≠ .suppressible 0x02 [0x67, 0x02] 2 := by
        simp [Reply.negative, Reply.suppressible, buildNrc]
      constructor
      · intro same
        exact absurd same other
      · intro same
        cases same

/-- A zero seed is the answer of an unlocked ECU and of no other. -/
theorem seedReply_zero_iff (t : SecurityState) (now : UInt64) (entropy : Option UInt32) :
    (seedReply (securityRequestSeed now entropy t 0x01).2).resp = [0x67, 0x01] ++ split32 0 ↔
      t.unlockedLevel ≠ 0 := by
  have effect := securityRequestSeed_effect now entropy t
  generalize (securityRequestSeed now entropy t 0x01).1 = after at effect
  generalize (securityRequestSeed now entropy t 0x01).2 = result at effect ⊢
  have fresh : ([0x67, 0x01] ++ split32 (drawSeed entropy) : List UInt8) ≠
      [0x67, 0x01] ++ split32 0 := by
    intro same
    exact drawSeed_ne_zero entropy (split32_inj (List.append_cancel_left same))
  cases effect with
  | unlocked level =>
      refine ⟨fun _ locked => ?_, fun _ => rfl⟩
      rw [locked] at level
      exact absurd level (by decide)
  | lockedOut level =>
      exact ⟨fun same => absurd same (by decide), fun unlocked => absurd level unlocked⟩
  | expired level =>
      exact ⟨fun same => absurd same fresh, fun unlocked => absurd level unlocked⟩
  | fresh level =>
      exact ⟨fun same => absurd same fresh, fun unlocked => absurd level unlocked⟩

end Handshake

/-- **Seed and key agree between ECU and tester.** In an extended or programming session:
a locked ECU outside a lock-out answers `27 01` with a nonzero seed, and of all keys the
next `27 02` accepts exactly the one that `security_algo` computes from the seed bytes.
A zero seed is the answer exactly if the ECU is unlocked already. -/
theorem seed_key_agreement (boot : UInt64) (past : List ServerInput) (amb : Ambient)
    (gate : isExtendedSession (serverRun boot past) = true) :
    let s := serverRun boot past
    let asked := serverStep s ⟨.request [0x27, 0x01], amb⟩
    (s.security.unlockedLevel = 0 → ¬ InLockout s.security amb.now →
      ∃ seed, seed ≠ 0 ∧
        asked.2 = some (.suppressible 0x01 ([0x67, 0x01] ++ split32 seed) 6) ∧
        ∀ k₀ k₁ k₂ k₃ next,
          let sent := serverStep asked.1 ⟨.request [0x27, 0x02, k₀, k₁, k₂, k₃], next⟩
          (sent.2 = some (.suppressible 0x02 [0x67, 0x02] 2) ∧
              sent.1.security.unlockedLevel = 1) ↔
            securityAlgo 1 (split32 seed) = some [k₀, k₁, k₂, k₃]) ∧
      (asked.2.map Reply.resp = some ([0x67, 0x01] ++ split32 0) ↔
        s.security.unlockedLevel ≠ 0) := by
  intro s asked
  have answered : asked = ({ s with
      security := (securityRequestSeed amb.now amb.entropy s.security 0x01).1 },
      some (seedReply (securityRequestSeed amb.now amb.entropy s.security 0x01).2)) :=
    serverStep_requestSeed gate
  constructor
  · intro locked clear
    obtain ⟨fails, issued⟩ := securityRequestSeed_locked amb.entropy locked clear
    rw [issued] at answered
    refine ⟨drawSeed amb.entropy, drawSeed_ne_zero _, by rw [answered]; rfl, ?_⟩
    intro k₀ k₁ k₂ k₃ next sent
    have extended : isExtendedSession asked.1 = true := by
      rw [answered]
      exact gate
    have judged : serverStep asked.1 ⟨.request [0x27, 0x02, k₀, k₁, k₂, k₃], next⟩ = _ :=
      serverStep_sendKey extended k₀ k₁ k₂ k₃
    have security : asked.1.security = ⟨0, drawSeed amb.entropy, true, fails, 0⟩ := by rw [answered]
    rw [security] at judged
    have accepts := securitySendKey_accepts_iff (drawSeed amb.entropy) (join32 k₀ k₁ k₂ k₃) fails
      next.now next.later
    rw [securityAlgo_eq_some]
    simp only [sent, judged, Option.some.injEq, keyReply_positive]
    exact accepts
  · rw [answered, Option.map_some, Option.some.injEq]
    exact seedReply_zero_iff s.security amb.now amb.entropy

/-- A seed request in an extended session. -/
def seedAsked : EcuState × Option Reply :=
  serverStep (serverRun 0 [.requestAt 0 [0x10, 0x03]]) ⟨.request [0x27, 0x01], .still 1⟩

theorem seed_key_agreement_extended_session :
    ∃ seed, seed ≠ 0 ∧ seedAsked.2 = some (.suppressible 0x01 ([0x67, 0x01] ++ split32 seed) 6) ∧
      (((serverStep seedAsked.1 (.requestAt 2 [0x27, 0x02, 0xDE, 0xAD, 0xBE, 0xEE])).2 =
            some (.suppressible 0x02 [0x67, 0x02] 2) ∧
          (serverStep seedAsked.1
            (.requestAt 2 [0x27, 0x02, 0xDE, 0xAD, 0xBE, 0xEE])).1.security.unlockedLevel = 1) ↔
        securityAlgo 1 (split32 seed) = some [0xDE, 0xAD, 0xBE, 0xEE]) := by
  obtain ⟨seed, nonzero, answered, keys⟩ :=
    (seed_key_agreement 0 [.requestAt 0 [0x10, 0x03]] (.still 1) (by decide +kernel)).1
      (by decide +kernel) (by decide +kernel)
  exact ⟨seed, nonzero, answered, keys 0xDE 0xAD 0xBE 0xEE (.still 2)⟩

end VecuUds
