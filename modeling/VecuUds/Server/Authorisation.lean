import VecuUds.Server.History

/-!
# Who may write the owner name

The authorisation of a write is spread over the session, the unlocked level and the
pending seed. The history invariant ties both security components to the past of the
run: a pending seed was handed out by the latest issuing request and no key has been
judged against it, and an unlocked ECU has seen an accepted key that nothing has
relocked since.

The way back to the default session is a different matter. Reset and S3 timeout relock
the ECU and spend its seed, a session request does neither; the second half states what
holds as long as no session request leaves an unlocked session, or an issued seed, that way.
-/

namespace VecuUds

open Foundation

/-! ## The history invariant -/

/-- `seed` was handed out by the latest issuing visit, and no key was judged since. -/
def SeedPending (past : List ServerVisit) (seed : UInt32) : Prop :=
  ∃ earlier v since, past = earlier ++ v :: since ∧ IssuesSeed v seed ∧ ∀ w ∈ since, Quiet w

/-- A key was accepted for the seed pending at that time, and the ECU was neither
reset nor relocked by the S3 timer since. -/
def Authorised (past : List ServerVisit) : Prop :=
  ∃ earlier v since seed, past = earlier ++ v :: since ∧ SeedPending earlier seed ∧
    AcceptsKey v (seed ^^^ securityKeyConstant) ∧ ∀ w ∈ since, KeepsUnlock w

theorem SeedPending.snoc {past : List ServerVisit} {seed : UInt32} (pending : SeedPending past seed)
    {v : ServerVisit} (quiet : Quiet v) : SeedPending (past ++ [v]) seed := by
  obtain ⟨earlier, u, since, rfl, issues, silent⟩ := pending
  refine ⟨earlier, u, since ++ [v], by simp, issues, ?_⟩
  intro w member
  rcases List.mem_append.mp member with before | last
  · exact silent w before
  · rw [List.mem_singleton.mp last]
    exact quiet

theorem Authorised.snoc {past : List ServerVisit} (authorised : Authorised past)
    {v : ServerVisit} (keeps : KeepsUnlock v) : Authorised (past ++ [v]) := by
  obtain ⟨earlier, u, since, seed, rfl, pending, accepts, kept⟩ := authorised
  refine ⟨earlier, u, since ++ [v], seed, by simp, pending, accepts, ?_⟩
  intro w member
  rcases List.mem_append.mp member with before | last
  · exact kept w before
  · rw [List.mem_singleton.mp last]
    exact keeps

/-- What the past of a run says about its present security state. -/
structure Accounted (past : List ServerVisit) (s : EcuState) : Prop where
  registered : s.dids = ecuDids
  seed : s.security.seedIssued = true → SeedPending past s.security.pendingSeed
  level : s.security.unlockedLevel ≠ 0 → Authorised past

/-- One visit carries the account over, whatever its move. -/
theorem Accounted.step {past : List ServerVisit} {s : EcuState} (account : Accounted past s)
    (i : ServerInput) : Accounted (past ++ [visit serverStep s i]) (serverStep s i).1 := by
  have effect := serverStep_effect account.registered i
  refine ⟨effect.dids.trans account.registered, ?_, ?_⟩
  · intro issued
    cases (effect.securityStep.move : SecurityMove (visit serverStep s i)) with
    | idle quiet _ seed _ =>
        obtain ⟨before, same⟩ := seed issued
        change (serverStep s i).1.security.pendingSeed = s.security.pendingSeed at same
        rw [same]
        exact (account.seed before).snoc quiet
    | issue issues => exact ⟨past, _, [], rfl, issues, by simp⟩
    | accept _ _ spent => exact absurd (issued.symm.trans spent) (by decide)
    | reject _ _ spent _ => exact absurd (issued.symm.trans spent) (by decide)
    | lock _ spent => exact absurd (issued.symm.trans spent) (by decide)
  · intro unlocked
    cases (effect.securityStep.move : SecurityMove (visit serverStep s i)) with
    | idle _ keeps _ level =>
        exact (account.level (fun zero => unlocked (level.trans zero))).snoc keeps
    | issue _ locked => exact absurd locked unlocked
    | accept issued accepts _ =>
        exact ⟨past, _, [], s.security.pendingSeed, rfl, account.seed issued, accepts, by simp⟩
    | reject _ keeps _ level =>
        exact (account.level (fun zero => unlocked (level.trans zero))).snoc keeps
    | lock locked _ => exact absurd locked unlocked

/-- Every run is accounted for by its own trace. -/
theorem serverRun_accounted (boot : UInt64) (inputs : List ServerInput) :
    Accounted (serverTrace boot inputs) (serverRun boot inputs) :=
  history_invariant serverStep (H := Accounted) (fun _ _ i account => account.step i)
    ⟨rfl, by simp [vecuInit, securityInit], by simp [vecuInit, securityInit]⟩ inputs

/-! ## Authorised writes -/

/-- The owner name changes only through a positive write request. -/
theorem ServerEffect.owner_changed {s s' : EcuState} {i : ServerInput} {reply : Option Reply}
    (effect : ServerEffect s i s' reply) (changed : s'.owner.content ≠ s.owner.content) :
    ∃ data, i.op = .request ([0x2E, 0xF2, 0x00] ++ data) ∧ 1 ≤ data.length ∧
      data.length ≤ ownerNameCap ∧ isExtendedSession s = true ∧ 1 ≤ s.security.unlockedLevel := by
  cases effect with
  | request req op effect =>
      cases effect with
      | writeDid data request nonempty fits gate unlocked =>
          exact ⟨data, by rw [op, request], List.length_pos_iff.mpr nonempty, fits, gate, unlocked⟩
      | _ => exact absurd rfl changed
  | _ => exact absurd rfl changed

/-- **Write authorisation over whole runs.** -/
theorem owner_write_authorised (boot : UInt64) (past : List ServerInput) (i : ServerInput)
    (changed : (serverStep (serverRun boot past) i).1.owner.content ≠
      (serverRun boot past).owner.content) :
    (∃ data, i.op = .request ([0x2E, 0xF2, 0x00] ++ data) ∧ 1 ≤ data.length ∧ data.length ≤ 32) ∧
      ((serverRun boot past).session = udsSessionExtended ∨
        (serverRun boot past).session = udsSessionProgramming) ∧
      Authorised (serverTrace boot past) := by
  obtain ⟨data, op, nonempty, fits, gate, unlocked⟩ :=
    (serverRun_effect boot past i).owner_changed changed
  refine ⟨⟨data, op, nonempty, fits⟩, by simpa [isExtendedSession] using gate, ?_⟩
  apply (serverRun_accounted boot past).level
  intro locked
  rw [locked] at unlocked
  exact absurd unlocked (by decide)

/-- Extended session, seed request and the right key for the seed one. -/
def unlockSequence : List ServerInput :=
  [.requestAt 0 [0x10, 0x03], .requestAt 1 [0x27, 0x01],
    .requestAt 2 [0x27, 0x02, 0xDE, 0xAD, 0xBE, 0xEE]]

theorem owner_write_authorised_after_unlock : Authorised (serverTrace 0 unlockSequence) :=
  (owner_write_authorised 0 unlockSequence (.requestAt 3 [0x2E, 0xF2, 0x00, 0x41])
    (by decide)).2.2

/-! ## The way back to the default session -/

/-- A session request for the default session. -/
def ReturnsToDefault (v : ServerVisit) : Prop :=
  v.input.op = .request [0x10, 0x01] ∨ v.input.op = .request [0x10, 0x81]

instance (v : ServerVisit) : Decidable (ReturnsToDefault v) :=
  inferInstanceAs (Decidable (_ ∨ _))

/-- A session request for the default session, handled while the ECU is unlocked.
This is the one step that leaves a session without relocking. -/
def LeavesUnlocked (v : ServerVisit) : Prop :=
  ReturnsToDefault v ∧ v.before.security.unlockedLevel ≠ 0

instance (v : ServerVisit) : Decidable (LeavesUnlocked v) :=
  inferInstanceAs (Decidable (_ ∧ _))

/-- A session request for the default session, handled while a seed is issued. The seed
can then be answered in a later session. -/
def LeavesSeed (v : ServerVisit) : Prop :=
  ReturnsToDefault v ∧ v.before.security.seedIssued = true

instance (v : ServerVisit) : Decidable (LeavesSeed v) :=
  inferInstanceAs (Decidable (_ ∧ _))

/-- In the default session the security state has a property. -/
def DefaultHas (P : SecurityState → Prop) (s : EcuState) : Prop :=
  s.session = udsSessionDefault → P s.security

/-- In the default session the ECU is locked. -/
def DefaultLocked : EcuState → Prop := DefaultHas fun t => t.unlockedLevel = 0

private theorem not_default_of_gate {s : EcuState} (gate : isExtendedSession s = true) :
    s.session ≠ udsSessionDefault := by
  intro default
  simp [isExtendedSession, default] at gate
  revert gate
  decide

/-- Reset and S3 timeout establish the property, and no key or seed is handled in the
default session. What is left is the session request. -/
theorem ServerEffect.defaultHas {P : SecurityState → Prop} {s s' : EcuState} {i : ServerInput}
    {reply : Option Reply} (effect : ServerEffect s i s' reply) (held : DefaultHas P s)
    (reset : ∀ t : SecurityState, P t.reset) (relock : ∀ t : SecurityState, P t.relock)
    (stays : ReturnsToDefault ⟨s, i, reply, s'⟩ → P s.security) : DefaultHas P s' := by
  cases effect with
  | request req op effect =>
      cases effect with
      | sessionControl raw request known =>
          intro default
          apply stays
          change i.op = _ ∨ i.op = _
          rw [op, request]
          rcases subFunction_eq_one default with rfl | rfl
          · exact .inl rfl
          · exact .inr rfl
      | ecuReset =>
          intro _
          exact reset s.security
      | requestSeed raw request known gate =>
          intro default
          exact absurd default (not_default_of_gate gate)
      | keyAccepted raw k₀ k₁ k₂ k₃ request known gate =>
          intro default
          exact absurd default (not_default_of_gate gate)
      | keyRejected raw k₀ k₁ k₂ k₃ request known gate =>
          intro default
          exact absurd default (not_default_of_gate gate)
      | _ => exact held
  | s3Timeout =>
      intro _
      exact relock s.security
  | _ => exact held

theorem ServerEffect.defaultLocked {s s' : EcuState} {i : ServerInput} {reply : Option Reply}
    (effect : ServerEffect s i s' reply) (locked : DefaultLocked s)
    (stays : ¬ LeavesUnlocked ⟨s, i, reply, s'⟩) : DefaultLocked s' := by
  refine effect.defaultHas locked (fun _ => rfl) (fun _ => rfl) ?_
  intro returns
  by_contra unlocked
  exact stays ⟨returns, unlocked⟩

/-- A property that reset and S3 timeout establish holds in the default session of every
run in which the session requests for it are handled with the property in place. -/
theorem serverRun_defaultHas {P : SecurityState → Prop} (boot : UInt64) (inputs : List ServerInput)
    (init : P securityInit) (reset : ∀ t : SecurityState, P t.reset)
    (relock : ∀ t : SecurityState, P t.relock)
    (stays : ∀ v ∈ serverTrace boot inputs, ReturnsToDefault v → P v.before.security) :
    DefaultHas P (serverRun boot inputs) := by
  have both : (serverRun boot inputs).dids = ecuDids ∧ DefaultHas P (serverRun boot inputs) := by
    refine run_invariant_of_visits serverStep (P := fun s => s.dids = ecuDids ∧ DefaultHas P s)
      (C := fun v => ReturnsToDefault v → P v.before.security) ?_ ⟨rfl, fun _ => init⟩ inputs stays
    rintro s i ⟨registered, held⟩ stay
    have effect := serverStep_effect registered i
    exact ⟨effect.dids.trans registered, effect.defaultHas held reset relock stay⟩
  exact both.2

/-- As long as no session request leaves an unlocked session, the default session is
a locked one at every point of the run. -/
theorem serverRun_defaultLocked (boot : UInt64) (inputs : List ServerInput)
    (stays : ∀ v ∈ serverTrace boot inputs, ¬ LeavesUnlocked v) :
    DefaultLocked (serverRun boot inputs) := by
  refine serverRun_defaultHas boot inputs rfl (fun _ => rfl) (fun _ => rfl) ?_
  intro v member returns
  by_contra unlocked
  exact stays v member ⟨returns, unlocked⟩

/-- As long as no session request leaves a seed behind, no seed is issued in the default
session. -/
theorem serverRun_defaultSpent (boot : UInt64) (inputs : List ServerInput)
    (answered : ∀ v ∈ serverTrace boot inputs, ¬ LeavesSeed v) :
    DefaultHas (fun t => t.seedIssued = false) (serverRun boot inputs) := by
  refine serverRun_defaultHas boot inputs rfl (fun _ => rfl) (fun _ => rfl) ?_
  intro v member returns
  by_contra issued
  exact answered v member ⟨returns, by simpa using issued⟩

/-- A locked ECU without a seed accounts for its security state from there on. -/
theorem accounted_of_locked {s : EcuState} (registered : s.dids = ecuDids)
    (locked : s.security.unlockedLevel = 0) (spent : s.security.seedIssued = false)
    (gap : List ServerInput) : Accounted (trace serverStep s gap) (run serverStep s gap) := by
  refine history_invariant serverStep (H := Accounted) (fun _ _ i account => account.step i)
    ⟨registered, ?_, ?_⟩ gap
  · intro issued
    exact absurd (issued.symm.trans spent) (by decide)
  · intro unlocked
    exact absurd locked unlocked

/-- A locked ECU gets unlocked by an accepted key only. -/
theorem unlocked_by_accepted_key {s : EcuState} (registered : s.dids = ecuDids)
    (locked : s.security.unlockedLevel = 0) (gap : List ServerInput)
    (unlocked : (run serverStep s gap).security.unlockedLevel ≠ 0) :
    ∃ v ∈ trace serverStep s gap, response v = [0x67, 0x02] := by
  by_contra none
  apply unlocked
  have both : (run serverStep s gap).dids = ecuDids ∧
      (run serverStep s gap).security.unlockedLevel = 0 := by
    refine run_invariant_of_visits serverStep
      (P := fun s => s.dids = ecuDids ∧ s.security.unlockedLevel = 0)
      (C := fun v => response v ≠ [0x67, 0x02]) ?_ ⟨registered, locked⟩ gap
      (fun v member accepted => none ⟨v, member, accepted⟩)
    rintro s i ⟨registered, locked⟩ unaccepted
    have effect := serverStep_effect registered i
    refine ⟨effect.dids.trans registered, ?_⟩
    cases (effect.securityStep.move : SecurityMove (visit serverStep s i)) with
    | idle _ _ _ level => exact level.trans locked
    | issue _ still => exact still
    | accept _ accepts _ => exact absurd accepts.2 unaccepted
    | reject _ _ _ level => exact level.trans locked
    | lock still _ => exact still
  exact both.2

/-- A positive write needs an unlocked ECU. -/
theorem ServerEffect.write_unlocked {s s' : EcuState} {i : ServerInput} {reply : Option Reply}
    (effect : ServerEffect s i s' reply)
    (written : response ⟨s, i, reply, s'⟩ = [0x6E, 0xF2, 0x00]) :
    s.security.unlockedLevel ≠ 0 := by
  cases effect with
  | request req op effect =>
      cases effect with
      | writeDid data request nonempty fits gate unlocked =>
          intro locked
          rw [locked] at unlocked
          exact absurd unlocked (by decide)
      | _ => simp [response, Reply.negative, Reply.suppressible, Reply.positive, buildNrc,
          udsNegativeResponse] at written
  | _ => simp [response, Reply.dropped] at written

/-- **No unlocked ECU in the default session**, in every run in which no session
request leaves an unlocked session. A write after a default session then needs a key
accepted since; if no session request has left a seed behind either, it needs a new seed
and the key of that seed. -/
theorem default_session_locked (boot : UInt64) (before gap : List ServerInput)
    (stays : ∀ v ∈ serverTrace boot (before ++ gap), ¬ LeavesUnlocked v) :
    ((serverRun boot (before ++ gap)).session = udsSessionDefault →
        (serverRun boot (before ++ gap)).security.unlockedLevel = 0) ∧
      ((serverRun boot before).session = udsSessionDefault →
        ∀ i, response (visit serverStep (serverRun boot (before ++ gap)) i) = [0x6E, 0xF2, 0x00] →
          (∃ v ∈ trace serverStep (serverRun boot before) gap, response v = [0x67, 0x02]) ∧
            ((∀ v ∈ serverTrace boot before, ¬ LeavesSeed v) →
              Authorised (trace serverStep (serverRun boot before) gap))) := by
  refine ⟨serverRun_defaultLocked boot (before ++ gap) stays, ?_⟩
  intro default i written
  have prior : ∀ v ∈ serverTrace boot before, ¬ LeavesUnlocked v := by
    intro v member
    apply stays
    rw [serverTrace, trace_append]
    exact List.mem_append_left _ member
  have registered := serverRun_dids boot before
  have locked := serverRun_defaultLocked boot before prior default
  have unlocked := (serverRun_effect boot (before ++ gap) i).write_unlocked written
  rw [serverRun, run_append] at unlocked
  refine ⟨unlocked_by_accepted_key registered locked gap unlocked, ?_⟩
  intro answered
  have spent := serverRun_defaultSpent boot before answered default
  exact (accounted_of_locked registered locked spent gap).level unlocked

/-- The extended session and back, without a seed request. -/
def shortVisit : List ServerInput :=
  [.requestAt 0 [0x10, 0x03], .requestAt 0 [0x10, 0x01]]

theorem default_session_locked_before_unlock :
    Authorised (trace serverStep (serverRun 0 shortVisit) unlockSequence) :=
  ((default_session_locked 0 shortVisit unlockSequence (by decide)).2 rfl
    (.requestAt 3 [0x2E, 0xF2, 0x00, 0x41]) (by decide)).2 (by decide)

/-- Unlock and leave through a session request: the default session is unlocked. -/
theorem default_session_unlocked :
    ¬ ∀ (boot : UInt64) (inputs : List ServerInput), ClockFrom boot inputs →
      (serverRun boot inputs).session = udsSessionDefault →
        (serverRun boot inputs).security.unlockedLevel = 0 := by
  intro claim
  have escape := claim 0 (unlockSequence ++ [.requestAt 3 [0x10, 0x01]])
    (by decide) (by decide)
  revert escape
  decide

end VecuUds
