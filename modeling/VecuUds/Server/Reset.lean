import VecuUds.Server.Basic

/-!
# A reset ECU is a fresh one

`h_ecu_reset` clears the security state field by field and leaves the pending seed where
it is. `Indistinct` is the relation between two ECU states that no request can tell
apart: the pending seed counts only while a seed is out, and the owner buffer only up to
its length. Every handler answers indistinct states alike, for every response capacity,
and keeps them indistinct.
-/

namespace VecuUds

open Foundation

/-- Equal up to a pending seed that is not out. -/
structure SecurityState.Alike (s t : SecurityState) : Prop where
  level : s.unlockedLevel = t.unlockedLevel
  issued : s.seedIssued = t.seedIssued
  fails : s.failCount = t.failCount
  deadline : s.lockUntilMs = t.lockUntilMs
  seed : s.seedIssued = true → s.pendingSeed = t.pendingSeed

/-- Equal up to a pending seed that is not out and bytes behind the owner name. -/
structure Indistinct (a b : EcuState) : Prop where
  session : a.session = b.session
  stamp : a.lastTesterPresentMs = b.lastTesterPresentMs
  dids : a.dids = b.dids
  app : a.app = b.app
  dtcs : a.dtcs = b.dtcs
  owner : a.owner.content = b.owner.content
  security : a.security.Alike b.security

/-- Equal answers, and states that stay indistinct. -/
def AnswersAlike (a b : EcuState × Reply) : Prop := a.2 = b.2 ∧ Indistinct a.1 b.1

/-! ## The security module -/

section Security

variable {s t : SecurityState}

theorem SecurityState.Alike.refl (s : SecurityState) : s.Alike s :=
  ⟨rfl, rfl, rfl, rfl, fun _ => rfl⟩

theorem SecurityState.Alike.relock (alike : s.Alike t) : s.relock.Alike t.relock :=
  ⟨rfl, rfl, alike.fails, alike.deadline, fun issued => absurd issued Bool.false_ne_true⟩

/-- A reset leaves what `security_init` sets up, but for the pending seed. -/
theorem SecurityState.alike_reset (s t : SecurityState) : s.reset.Alike t.reset :=
  ⟨rfl, rfl, rfl, rfl, fun issued => absurd issued Bool.false_ne_true⟩

theorem issueSeed_alike (entropy : Option UInt32) (alike : s.Alike t) :
    (issueSeed entropy s).2 = (issueSeed entropy t).2 ∧
      (issueSeed entropy s).1.Alike (issueSeed entropy t).1 :=
  ⟨rfl, alike.level, rfl, alike.fails, alike.deadline, fun _ => rfl⟩

theorem securityRequestSeed_alike (now : UInt64) (entropy : Option UInt32) (level : UInt8)
    (alike : s.Alike t) :
    (securityRequestSeed now entropy s level).2 = (securityRequestSeed now entropy t level).2 ∧
      (securityRequestSeed now entropy s level).1.Alike
        (securityRequestSeed now entropy t level).1 := by
  obtain ⟨unlockedLevel, first, issued, fails, deadline⟩ := s
  obtain ⟨_, second, _, _, _⟩ := t
  obtain ⟨rfl, rfl, rfl, rfl, seed⟩ := alike
  simp only [securityRequestSeed]
  split_ifs
  · exact ⟨rfl, rfl, rfl, rfl, rfl, fun issued => absurd issued Bool.false_ne_true⟩
  · exact ⟨rfl, rfl, rfl, rfl, rfl, seed⟩
  · exact issueSeed_alike entropy ⟨rfl, rfl, rfl, rfl, seed⟩
  · exact issueSeed_alike entropy ⟨rfl, rfl, rfl, rfl, seed⟩
  · exact ⟨rfl, rfl, rfl, rfl, rfl, seed⟩

theorem securitySendKey_alike (now later : UInt64) (level : UInt8) (key : UInt32)
    (alike : s.Alike t) :
    (securitySendKey now later s level key).2 = (securitySendKey now later t level key).2 ∧
      (securitySendKey now later s level key).1.Alike
        (securitySendKey now later t level key).1 := by
  obtain ⟨unlockedLevel, first, issued, fails, deadline⟩ := s
  obtain ⟨_, second, _, _, _⟩ := t
  obtain ⟨rfl, rfl, rfl, rfl, seed⟩ := alike
  cases issued with
  | false =>
      by_cases supported : levelSupported level = true
      · simp only [securitySendKey, supported, Bool.false_eq_true, not_true_eq_false,
          not_false_eq_true, if_true, if_false]
        exact ⟨trivial, rfl, rfl, rfl, rfl, seed⟩
      · simp only [securitySendKey, supported, Bool.false_eq_true, not_false_eq_true, if_true]
        exact ⟨trivial, rfl, rfl, rfl, rfl, seed⟩
  | true =>
      -- the key is judged against the same seed
      obtain rfl : first = second := seed rfl
      exact ⟨rfl, .refl _⟩

end Security

/-! ## The handlers -/

section Handlers

variable {a b : EcuState} (amb : Ambient) (req : List UInt8) (cap : Nat)

theorem Indistinct.refused (alike : Indistinct a b) (reply : Reply) :
    AnswersAlike (a, reply) (b, reply) := ⟨rfl, alike⟩

theorem Indistinct.setSession (alike : Indistinct a b) (now : UInt64) (session : UInt8) :
    Indistinct (vecuSetSession now a session) (vecuSetSession now b session) :=
  ⟨rfl, rfl, alike.dids, alike.app, alike.dtcs, alike.owner, alike.security⟩

theorem Indistinct.withSecurity (alike : Indistinct a b) {s t : SecurityState} (same : s.Alike t) :
    Indistinct { a with security := s } { b with security := t } :=
  ⟨alike.session, alike.stamp, alike.dids, alike.app, alike.dtcs, alike.owner, same⟩

theorem isExtendedSession_alike (alike : Indistinct a b) :
    isExtendedSession a = isExtendedSession b := by
  rw [isExtendedSession, isExtendedSession, alike.session]

theorem hSessionControl_alike (alike : Indistinct a b) :
    AnswersAlike (hSessionControl amb a req cap) (hSessionControl amb b req cap) := by
  simp only [hSessionControl]
  split_ifs
  · exact alike.refused _
  · exact ⟨rfl, alike.setSession _ _⟩
  · exact ⟨rfl, alike.setSession _ _⟩
  · exact alike.refused _

theorem hEcuReset_alike (alike : Indistinct a b) :
    AnswersAlike (hEcuReset amb a req cap) (hEcuReset amb b req cap) := by
  simp only [hEcuReset]
  split_ifs
  · exact alike.refused _
  · exact alike.refused _
  · exact ⟨rfl, (alike.setSession _ _).withSecurity (SecurityState.alike_reset _ _)⟩

theorem hClearDtc_alike (alike : Indistinct a b) :
    AnswersAlike (hClearDtc amb a req cap) (hClearDtc amb b req cap) := by
  simp only [hClearDtc, alike.dtcs]
  split_ifs
  · exact alike.refused _
  · exact ⟨rfl, alike.session, alike.stamp, alike.dids, alike.app, rfl, alike.owner,
      alike.security⟩
  · exact alike.refused _

theorem hReadDtc_alike (alike : Indistinct a b) :
    AnswersAlike (hReadDtc amb a req cap) (hReadDtc amb b req cap) := by
  simp only [hReadDtc, alike.dtcs]
  split_ifs <;> exact alike.refused _

/-- The owner name is shorter than the buffer of `h_read_did`, so a read sees all of it. -/
theorem ownerRead_eq (o : OwnerName) : ownerRead o 256 = some o.content := by
  have short : ¬ o.len > 256 := by
    have bound := o.len_le
    simp only [ownerNameCap] at bound
    omega
  rw [ownerRead, if_neg short]
  rfl

theorem didPayload_alike (alike : Indistinct a b) (e : DidEntry DidReadFn DidWriteFn) :
    didPayload a e = didPayload b e := by
  have read : ∀ fn : DidReadFn, DidCallbacks.read fn a 256 = DidCallbacks.read fn b 256 := by
    intro fn
    cases fn with
    | ownerRead =>
        change ownerRead a.owner 256 = ownerRead b.owner 256
        rw [ownerRead_eq, ownerRead_eq, alike.owner]
    | _ => simp only [DidCallbacks.read, alike.app]
  simp only [didPayload, read]

theorem hReadDid_alike (alike : Indistinct a b) :
    AnswersAlike (hReadDid amb a req cap) (hReadDid amb b req cap) := by
  simp only [hReadDid, alike.dids, didPayload_alike alike]
  split_ifs
  · exact alike.refused _
  · cases didTableLookup b.dids (join16 (byteAt req 1) (byteAt req 2)) with
    | none => exact alike.refused _
    | some e =>
        simp only
        cases didPayload b e with
        | bytes payload =>
            simp only
            split_ifs <;> exact alike.refused _
        | refused => exact alike.refused _
        | overflow => exact alike.refused _

theorem hRequestSeed_alike (alike : Indistinct a b) :
    AnswersAlike (hRequestSeed amb a req) (hRequestSeed amb b req) := by
  obtain ⟨sameResult, sameState⟩ := securityRequestSeed_alike amb.now amb.entropy
    (subFunction (byteAt req 1)) alike.security
  simp only [hRequestSeed, ← sameResult]
  split_ifs
  · exact alike.refused _
  · cases (securityRequestSeed amb.now amb.entropy a.security (subFunction (byteAt req 1))).2 with
    | refused nrc => exact ⟨rfl, alike.withSecurity sameState⟩
    | alreadyUnlocked => exact ⟨rfl, alike.withSecurity sameState⟩
    | issued seed => exact ⟨rfl, alike.withSecurity sameState⟩

theorem hSendKey_alike (alike : Indistinct a b) :
    AnswersAlike (hSendKey amb a req) (hSendKey amb b req) := by
  obtain ⟨sameResult, sameState⟩ := securitySendKey_alike amb.now amb.later
    (subFunction (byteAt req 1) - 1)
    (join32 (byteAt req 2) (byteAt req 3) (byteAt req 4) (byteAt req 5)) alike.security
  simp only [hSendKey, ← sameResult]
  split_ifs
  · exact alike.refused _
  · cases (securitySendKey amb.now amb.later a.security (subFunction (byteAt req 1) - 1)
        (join32 (byteAt req 2) (byteAt req 3) (byteAt req 4) (byteAt req 5))).2 with
    | error nrc => exact ⟨rfl, alike.withSecurity sameState⟩
    | ok value => exact ⟨rfl, alike.withSecurity sameState⟩

theorem hSecurityAccess_alike (alike : Indistinct a b) :
    AnswersAlike (hSecurityAccess amb a req cap) (hSecurityAccess amb b req cap) := by
  simp only [hSecurityAccess, isExtendedSession_alike alike]
  split_ifs
  · exact alike.refused _
  · exact hRequestSeed_alike amb req alike
  · exact hSendKey_alike amb req alike
  · exact alike.refused _

/-- A write stores the same name on both sides, or fails on both. -/
theorem didWrite_alike (alike : Indistinct a b) (fn : DidWriteFn) (input : List UInt8) :
    (DidCallbacks.write fn a input).1 = (DidCallbacks.write fn b input).1 ∧
      Indistinct (DidCallbacks.write fn a input).2 (DidCallbacks.write fn b input).2 := by
  cases fn
  by_cases bad : input.length = 0 ∨ input.length > ownerNameCap
  · simp only [DidCallbacks.write, ownerWrite_refused _ bad]
    exact ⟨trivial, alike⟩
  · have nonempty : input.length ≠ 0 := by omega
    have fits : input.length ≤ ownerNameCap := by omega
    simp only [DidCallbacks.write, ownerWrite_stored _ nonempty fits]
    refine ⟨trivial, alike.session, alike.stamp, alike.dids, alike.app, alike.dtcs, ?_,
      alike.security⟩
    simp only [OwnerName.content_store]

theorem hWriteDid_alike (alike : Indistinct a b) :
    AnswersAlike (hWriteDid amb a req cap) (hWriteDid amb b req cap) := by
  have unlocked : securityIsUnlocked a.security 0x01 = securityIsUnlocked b.security 0x01 := by
    rw [securityIsUnlocked, securityIsUnlocked, alike.security.level]
  simp only [hWriteDid, alike.dids, isExtendedSession_alike alike, unlocked]
  by_cases short : req.length < 4
  · simp only [short, if_true]
    exact alike.refused _
  simp only [short, if_false]
  cases didTableLookup b.dids (join16 (byteAt req 1) (byteAt req 2)) with
  | none => exact alike.refused _
  | some e =>
      simp only
      cases e.write with
      | none => exact alike.refused _
      | some fn =>
          obtain ⟨sameCode, sameState⟩ := didWrite_alike alike fn (req.drop 3)
          simp only [← sameCode]
          split_ifs
          · exact alike.refused _
          · exact alike.refused _
          · exact ⟨rfl, sameState⟩
          · exact ⟨rfl, sameState⟩

theorem hTesterPresent_alike (alike : Indistinct a b) :
    AnswersAlike (hTesterPresent amb a req cap) (hTesterPresent amb b req cap) := by
  simp only [hTesterPresent]
  split_ifs
  · exact alike.refused _
  · exact alike.refused _
  · exact ⟨rfl, alike.session, rfl, alike.dids, alike.app, alike.dtcs, alike.owner,
      alike.security⟩

/-- **No request tells indistinct states apart.** -/
theorem udsProcessRequest_alike (alike : Indistinct a b) :
    AnswersAlike (udsProcessRequest amb a req cap) (udsProcessRequest amb b req cap) := by
  by_cases dropped : req.length = 0 ∨ cap < 3
  · simp only [udsProcessRequest, dropped, if_true]
    exact alike.refused _
  simp only [udsProcessRequest, dropped, if_false]
  generalize same : List.find? _ _ = found
  have row : DispatchRow (byteAt req 0) found := same ▸ dispatch_row _
  cases row with
  | sessionControl => exact hSessionControl_alike amb req cap alike
  | ecuReset => exact hEcuReset_alike amb req cap alike
  | clearDtc => exact hClearDtc_alike amb req cap alike
  | readDtc => exact hReadDtc_alike amb req cap alike
  | readDid => exact hReadDid_alike amb req cap alike
  | securityAccess => exact hSecurityAccess_alike amb req cap alike
  | writeDid => exact hWriteDid_alike amb req cap alike
  | testerPresent => exact hTesterPresent_alike amb req cap alike
  | unsupported => exact alike.refused _

end Handlers

/-! ## Whole runs -/

theorem serverStep_alike {a b : EcuState} (i : ServerInput) (alike : Indistinct a b) :
    (serverStep a i).2 = (serverStep b i).2 ∧
      Indistinct (serverStep a i).1 (serverStep b i).1 := by
  cases op : i.op with
  | request req =>
      obtain ⟨reply, states⟩ := udsProcessRequest_alike i.amb req udsMaxMsgLen alike
      simp only [serverStep, op]
      exact ⟨congrArg some reply, states⟩
  | s3Iteration =>
      simp only [serverStep, op, s3Iteration, alike.session, alike.stamp]
      split_ifs
      · exact ⟨trivial, (alike.setSession _ _).withSecurity alike.security.relock⟩
      · exact ⟨trivial, alike⟩
      · exact ⟨trivial, alike⟩
  | engineTick =>
      simp only [serverStep, op, alike.app]
      exact ⟨trivial, alike.session, alike.stamp, alike.dids, rfl, alike.dtcs, alike.owner,
        alike.security⟩

theorem serverStep_ecuReset (s : EcuState) (amb : Ambient) {raw : UInt8}
    (known : subFunction raw = 0x01 ∨ subFunction raw = 0x02 ∨ subFunction raw = 0x03) :
    serverStep s ⟨.request [0x11, raw], amb⟩ =
      (s.ecuReset amb.now, some (.suppressible raw [0x51, subFunction raw] 2)) := by
  have supported :
      ¬ (subFunction raw ≠ 0x01 ∧ subFunction raw ≠ 0x02 ∧ subFunction raw ≠ 0x03) := by
    rintro ⟨first, second, third⟩
    obtain one | two | three := known
    · exact first one
    · exact second two
    · exact third three
  have row : udsProcessRequest amb s [0x11, raw] udsMaxMsgLen =
      hEcuReset amb s [0x11, raw] udsMaxMsgLen := rfl
  have byte : byteAt [0x11, raw] 1 = raw := rfl
  simp only [serverStep, row, hEcuReset, byte, List.length_cons, List.length_nil, ne_eq,
    not_true_eq_false, if_false, if_neg supported]
  rfl

/-- A freshly initialised ECU that carries over the owner name, the trouble codes and
the telemetry of another one. -/
def vecuInitWith (now : UInt64) (owner : OwnerName) (s : EcuState) : EcuState :=
  { vecuInit now with owner := owner, dtcs := s.dtcs, app := s.app }

/-- **A positive reset forgets session and security history.** Whatever requests, S3
iterations and ticks follow, the ECU answers as a fresh one with the same owner name
would. -/
theorem reset_indistinct_from_fresh (boot : UInt64) (past : List ServerInput) (amb : Ambient)
    (raw : UInt8)
    (known : subFunction raw = 0x01 ∨ subFunction raw = 0x02 ∨ subFunction raw = 0x03)
    (owner : OwnerName) (carried : owner.content = (serverRun boot past).owner.content)
    (future : List ServerInput) :
    let s := serverRun boot past
    let reset := serverStep s ⟨.request [0x11, raw], amb⟩
    reset.2 = some (.suppressible raw [0x51, subFunction raw] 2) ∧
      (trace serverStep reset.1 future).map Visit.output =
        (trace serverStep (vecuInitWith amb.now owner s) future).map Visit.output := by
  intro s reset
  have step : reset = (s.ecuReset amb.now, some (.suppressible raw [0x51, subFunction raw] 2)) :=
    serverStep_ecuReset s amb known
  have start : Indistinct reset.1 (vecuInitWith amb.now owner s) := by
    rw [step]
    exact ⟨rfl, rfl, serverRun_dids boot past, rfl, rfl, carried.symm, rfl, rfl, rfl, rfl,
      fun issued => absurd issued Bool.false_ne_true⟩
  rw [step] at start ⊢
  exact ⟨rfl, (trace_bisimulation (fun a b i alike => serverStep_alike i alike) start future).1⟩

/-- An extended session with a wrong key and a second seed that is still out. -/
def seedOutSequence : List ServerInput :=
  [.requestAt 0 [0x10, 0x03], .requestAt 1 [0x27, 0x01],
    .requestAt 2 [0x27, 0x02, 0x00, 0x00, 0x00, 0x00], .requestAt 3 [0x27, 0x01]]

theorem reset_indistinct_from_fresh_seed_out :
    let reset := serverStep (serverRun 0 seedOutSequence) (.requestAt 4 [0x11, 0x81])
    let future := [.requestAt 5 [0x10, 0x03],
      .requestAt 6 [0x27, 0x02, 0xDE, 0xAD, 0xBE, 0xEE], .requestAt 7 [0x27, 0x01]]
    reset.2 = some (.suppressible 0x81 [0x51, 0x01] 2) ∧
      (trace serverStep reset.1 future).map Visit.output =
        (trace serverStep (vecuInitWith 4 ownerInit (serverRun 0 seedOutSequence)) future).map
          Visit.output :=
  reset_indistinct_from_fresh 0 seedOutSequence (.still 4) 0x81 (.inl (by decide)) ownerInit
    (by decide +kernel) _

end VecuUds
