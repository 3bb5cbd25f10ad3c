import VecuUds.Server.Basic

/-!
# Security events of a run

The history of a run is read off its wire bytes: which visits hand out a seed, which
judge a key and how, which reset the ECU and which let the S3 timer relock it.
`SecurityStep` is the summary of what one visit can do to the security state, next to the
response that shows it. `SecurityMove` forgets the failure counter and the deadline: all
statements about authorisation are inductions over its five moves.
-/

namespace VecuUds

open Foundation

/-- The response bytes of a visit; a step that is no request has none. -/
def response (v : ServerVisit) : List UInt8 := (v.output.map Reply.resp).getD []

/-- A seed request answered with a fresh, nonzero seed. -/
def IssuesSeed (v : ServerVisit) (seed : UInt32) : Prop :=
  (v.input.op = .request [0x27, 0x01] ∨ v.input.op = .request [0x27, 0x81]) ∧
    seed ≠ 0 ∧ response v = [0x67, 0x01] ++ split32 seed

/-- A sendKey request with this key that was accepted. -/
def AcceptsKey (v : ServerVisit) (key : UInt32) : Prop :=
  (v.input.op = .request ([0x27, 0x02] ++ split32 key) ∨
      v.input.op = .request ([0x27, 0x82] ++ split32 key)) ∧
    response v = [0x67, 0x02]

/-- A sendKey request that was judged against an issued seed and rejected. -/
def RejectsKey (v : ServerVisit) : Prop :=
  response v = [0x7F, 0x27, 0x35] ∨ response v = [0x7F, 0x27, 0x36]

/-- A sendKey request that was judged against an issued seed. -/
def JudgesKey (v : ServerVisit) : Prop := response v = [0x67, 0x02] ∨ RejectsKey v

/-- A positive ECUReset. -/
def PositiveReset (v : ServerVisit) : Prop := byteAt (response v) 0 = 0x51

/-- An S3 iteration that found the session expired, reverted and relocked it. -/
def S3Relock (v : ServerVisit) : Prop :=
  v.input.op = .s3Iteration ∧ v.before.session ≠ udsSessionDefault ∧
    v.after.session = udsSessionDefault

instance (v : ServerVisit) : Decidable (PositiveReset v) := inferInstanceAs (Decidable (_ = _))

instance (v : ServerVisit) : Decidable (RejectsKey v) :=
  inferInstanceAs (Decidable (_ ∨ _))

/-- Neither a new seed nor a judged key. -/
def Quiet (v : ServerVisit) : Prop := (∀ seed, ¬ IssuesSeed v seed) ∧ ¬ JudgesKey v

/-- Nothing that relocks the ECU. -/
def KeepsUnlock (v : ServerVisit) : Prop := ¬ PositiveReset v ∧ ¬ S3Relock v

/-- What one visit does to the security state, and the response that shows it. -/
inductive SecurityStep (v : ServerVisit) : Prop where
  | untouched (quiet : Quiet v) (keeps : KeepsUnlock v)
      (same : v.after.security = v.before.security)
  | seed (asked : v.input.op = .request [0x27, 0x01] ∨ v.input.op = .request [0x27, 0x81])
      (result : SeedResult) (seed : UInt32)
      (effect : SeedEffect v.input.amb.now v.input.amb.entropy v.before.security
        v.after.security result)
      (carried : result.seed = some seed)
      (answered : response v = [0x67, 0x01] ++ split32 seed) (keeps : KeepsUnlock v)
  | accepted (key : UInt32)
      (asked : v.input.op = .request ([0x27, 0x02] ++ split32 key) ∨
        v.input.op = .request ([0x27, 0x82] ++ split32 key))
      (effect : KeyEffect v.input.amb.now v.input.amb.later v.before.security key
        v.after.security (.ok ()))
      (answered : response v = [0x67, 0x02])
  | rejected (key : UInt32) (nrc : UdsNrc)
      (judged : nrc = .invalidKey ∨ nrc = .exceededNumberOfAttempts)
      (effect : KeyEffect v.input.amb.now v.input.amb.later v.before.security key
        v.after.security (.error nrc))
      (answered : response v = [0x7F, 0x27, nrc.code]) (keeps : KeepsUnlock v)
  | reset (positive : PositiveReset v) (fresh : v.after.security = v.before.security.reset)
  | relocked (silent : response v = []) (locked : v.after.security = v.before.security.relock)

/-- What one visit does to the unlocked level and the pending seed, and which events
it shows. -/
inductive SecurityMove (v : ServerVisit) : Prop where
  | idle (quiet : Quiet v) (keeps : KeepsUnlock v)
      (seed : v.after.security.seedIssued = true → v.before.security.seedIssued = true ∧
        v.after.security.pendingSeed = v.before.security.pendingSeed)
      (level : v.after.security.unlockedLevel = v.before.security.unlockedLevel)
  | issue (issues : IssuesSeed v v.after.security.pendingSeed)
      (locked : v.after.security.unlockedLevel = 0)
  | accept (issued : v.before.security.seedIssued = true)
      (accepts : AcceptsKey v (v.before.security.pendingSeed ^^^ securityKeyConstant))
      (spent : v.after.security.seedIssued = false)
  | reject (rejects : RejectsKey v) (keeps : KeepsUnlock v)
      (spent : v.after.security.seedIssued = false)
      (level : v.after.security.unlockedLevel = v.before.security.unlockedLevel)
  | lock (locked : v.after.security.unlockedLevel = 0)
      (spent : v.after.security.seedIssued = false)

section Moves

variable {v : ServerVisit}

/-- Seeds and judged keys show in the first two response bytes. -/
theorem quiet_of_head (positive : byteAt (response v) 0 ≠ 0x67)
    (negative : byteAt (response v) 0 ≠ 0x7F) : Quiet v := by
  constructor
  · rintro seed ⟨-, -, answered⟩
    exact positive (by rw [answered]; rfl)
  · rintro (answered | answered | answered)
    · exact positive (by rw [answered]; rfl)
    · exact negative (by rw [answered]; rfl)
    · exact negative (by rw [answered]; rfl)

/-- A request other than a positive reset keeps the unlocked level alone. -/
theorem keepsUnlock_of_request {req : List UInt8} (op : v.input.op = .request req)
    (positive : byteAt (response v) 0 ≠ 0x51) : KeepsUnlock v := by
  refine ⟨positive, ?_⟩
  rintro ⟨s3, -, -⟩
  rw [op] at s3
  cases s3

theorem quiet_of_refused {sid : UInt8} {nrc : UdsNrc}
    (answered : response v = [0x7F, sid, nrc.code])
    (unjudged : nrc ≠ .invalidKey ∧ nrc ≠ .exceededNumberOfAttempts) : Quiet v := by
  constructor
  · rintro seed ⟨-, -, issued⟩
    rw [answered] at issued
    simp at issued
  · rintro (judged | judged | judged)
    all_goals
      rw [answered] at judged
      revert unjudged
      cases nrc <;> simp_all [UdsNrc.code]

/-- A step without response and without S3 relock shows no event. -/
theorem untouched_of_silent (silent : response v = []) (relock : ¬ S3Relock v)
    (same : v.after.security = v.before.security) : SecurityStep v := by
  have head : byteAt (response v) 0 = 0 := by rw [silent]; rfl
  refine .untouched (quiet_of_head (by rw [head]; decide) (by rw [head]; decide)) ⟨?_, relock⟩ same
  simp [PositiveReset, head]

/-- A request whose first response byte is no event and that leaves security alone. -/
theorem untouched_of_request {req : List UInt8} (op : v.input.op = .request req) (b : UInt8)
    (head : byteAt (response v) 0 = b) (plain : b ≠ 0x67 ∧ b ≠ 0x7F ∧ b ≠ 0x51)
    (same : v.after.security = v.before.security) : SecurityStep v := by
  subst head
  exact .untouched (quiet_of_head plain.1 plain.2.1) (keepsUnlock_of_request op plain.2.2) same

/-- The bytes of a sendKey request spell the key it carries. -/
theorem sendKey_asked {raw k₀ k₁ k₂ k₃ : UInt8}
    (op : v.input.op = .request [0x27, raw, k₀, k₁, k₂, k₃]) (known : subFunction raw = 0x02) :
    v.input.op = .request ([0x27, 0x02] ++ split32 (join32 k₀ k₁ k₂ k₃)) ∨
      v.input.op = .request ([0x27, 0x82] ++ split32 (join32 k₀ k₁ k₂ k₃)) := by
  rw [split32_join32, op]
  rcases subFunction_eq_two known with rfl | rfl
  · exact .inl rfl
  · exact .inr rfl

end Moves

/-- The security step of a request, by the effect it has. -/
theorem Effect.securityStep {s s' : EcuState} {i : ServerInput} {req : List UInt8} {reply : Reply}
    (op : i.op = .request req) (effect : Effect i.amb s req s' reply) :
    SecurityStep ⟨s, i, some reply, s'⟩ := by
  cases effect with
  | refused nrc documented unjudged =>
      exact .untouched (quiet_of_refused rfl unjudged)
        (keepsUnlock_of_request op (by decide : (0x7F : UInt8) ≠ 0x51)) rfl
  | sessionControl => exact untouched_of_request op 0x50 rfl (by decide) rfl
  | ecuReset => exact .reset rfl rfl
  | clearDtc => exact untouched_of_request op 0x54 rfl (by decide) rfl
  | readDtc => exact untouched_of_request op 0x59 rfl (by decide) rfl
  | readDid => exact untouched_of_request op 0x62 rfl (by decide) rfl
  | requestSeed raw request known gate t result seed effect carried =>
      refine .seed ?_ result seed effect carried rfl
        (keepsUnlock_of_request op (by decide : (0x67 : UInt8) ≠ 0x51))
      change i.op = _ ∨ i.op = _
      rw [op, request]
      rcases subFunction_eq_one known with rfl | rfl
      · exact .inl rfl
      · exact .inr rfl
  | keyAccepted raw k₀ k₁ k₂ k₃ request known gate t effect =>
      subst request
      exact .accepted _ (sendKey_asked op known) effect rfl
  | keyRejected raw k₀ k₁ k₂ k₃ request known gate t nrc judged effect =>
      exact .rejected _ nrc judged effect rfl
        (keepsUnlock_of_request op (by decide : (0x7F : UInt8) ≠ 0x51))
  | writeDid => exact untouched_of_request op 0x6E rfl (by decide) rfl
  | testerPresent => exact untouched_of_request op 0x7E rfl (by decide) rfl

/-- Every visit of a run is one of the six security steps. -/
theorem ServerEffect.securityStep {s s' : EcuState} {i : ServerInput} {reply : Option Reply}
    (effect : ServerEffect s i s' reply) : SecurityStep ⟨s, i, reply, s'⟩ := by
  cases effect with
  | request req op effect => exact effect.securityStep op
  | empty op =>
      refine untouched_of_silent rfl ?_ rfl
      rintro ⟨s3, -, -⟩
      simp [op] at s3
  | s3Idle op => exact untouched_of_silent rfl (fun relocked => relocked.2.1 relocked.2.2) rfl
  | s3Timeout => exact .relocked rfl rfl
  | engineTick op =>
      refine untouched_of_silent rfl ?_ rfl
      rintro ⟨s3, -, -⟩
      simp [op] at s3

/-- Every visit of a run makes one of the five moves. -/
theorem SecurityStep.move {v : ServerVisit} (step : SecurityStep v) : SecurityMove v := by
  cases step with
  | untouched quiet keeps same =>
      refine .idle quiet keeps ?_ (by rw [same])
      rw [same]
      intro issued
      exact ⟨issued, rfl⟩
  | seed asked result seed effect carried answered keeps =>
      generalize after : v.after.security = t at effect
      cases effect with
      | unlocked =>
          -- The zero seed announces an unlocked ECU; it is no seed to answer.
          cases carried
          refine .idle ⟨?_, ?_⟩ keeps (by simp [after]) (by rw [after])
          · rintro seed ⟨-, nonzero, issued⟩
            rw [answered] at issued
            exact nonzero (split32_inj (List.append_cancel_left issued)).symm
          · rintro (judged | judged | judged) <;> simp [answered, split32] at judged
      | lockedOut => cases carried
      | expired level =>
          cases carried
          exact .issue (by rw [after]; exact ⟨asked, drawSeed_ne_zero _, answered⟩)
            (by rw [after]; exact level)
      | fresh level =>
          cases carried
          exact .issue (by rw [after]; exact ⟨asked, drawSeed_ne_zero _, answered⟩)
            (by rw [after]; exact level)
  | accepted key asked effect answered =>
      generalize after : v.after.security = t at effect
      cases effect with
      | accepted issued right =>
          exact .accept issued ⟨by rw [← right]; exact asked, answered⟩ (by rw [after])
  | rejected key nrc judged effect answered keeps =>
      generalize after : v.after.security = t at effect
      cases effect with
      | outOfSequence => simp at judged
      | lockedOut => simp at judged
      | invalid => exact .reject (.inl answered) keeps (by rw [after]) (by rw [after])
      | exceeded => exact .reject (.inr answered) keeps (by rw [after]) (by rw [after])
  | reset positive fresh => exact .lock (by rw [fresh]; rfl) (by rw [fresh]; rfl)
  | relocked silent locked => exact .lock (by rw [locked]; rfl) (by rw [locked]; rfl)

end VecuUds
