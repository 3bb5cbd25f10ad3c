import VecuUds.Client.Unlock

/-!
# The unlock command

`cmd_unlock` of the Python client, run against the ECU: a session request, a seed
request, the computation of the key and a key request. The client library is taken at
its word: it sends these three requests and raises on an answer that is not positive.
Between the requests the other threads of the ECU may act, and a slow client may find that
the S3 timer has expired the session that it has opened.

The command takes the seed of every positive answer for a challenge. An ECU that is
unlocked already answers with the zero seed and awaits no key, so the command fails there,
however fast the client is.
-/

namespace VecuUds

open Foundation

/-- One request of the client with the answer it returns; `none` stands for an exception. -/
def clientRequest (s : EcuState) (amb : Ambient) (req : List UInt8) :
    EcuState × Option (List UInt8) :=
  let r := serverStep s ⟨.request req, amb⟩
  (r.1, r.2.bind fun reply =>
    if reply.rc = 0 ∧ byteAt reply.resp 0 = udsPosResp (byteAt req 0) then some reply.resp
    else none)

/-- What the three requests of the command meet, and the steps of the other threads
before the second and before the third of them. -/
structure UnlockWindow where
  session : Ambient
  beforeSeed : List ServerInput
  seed : Ambient
  beforeKey : List ServerInput
  key : Ambient

/-- `cmd_unlock`, with the state it leaves. The seed is the answer past its first two bytes. -/
def cmdUnlock (level : UInt8) (w : UnlockWindow) (s : EcuState) : EcuState × Option Unit :=
  let opened := clientRequest s w.session [0x10, 0x03]
  match opened.2 with
  | none => (opened.1, none)
  | some _ =>
      let asked := clientRequest (run serverStep opened.1 w.beforeSeed) w.seed [0x27, level]
      match asked.2 with
      | none => (asked.1, none)
      | some resp =>
          match securityAlgo level.toNat (resp.drop 2) with
          | none => (asked.1, none)
          | some key =>
              let sent := clientRequest (run serverStep asked.1 w.beforeKey) w.key
                ([0x27, level + 1] ++ key)
              (sent.1, sent.2.map fun _ => ())

/-- Steps of the other threads: no request is served. -/
def NoRequest (steps : List ServerInput) : Prop :=
  ∀ i ∈ steps, i.op = .s3Iteration ∨ i.op = .engineTick

/-- No S3 iteration finds a session too old that was refreshed at this reading. -/
def KeepsSession (refreshed : UInt64) (steps : List ServerInput) : Prop :=
  ∀ i ∈ steps, i.op = .s3Iteration → i.amb.now - refreshed ≤ s3TimeoutMs

theorem noRequest_nil : NoRequest [] := by
  intro i member
  exact absurd member List.not_mem_nil

theorem keepsSession_nil (refreshed : UInt64) : KeepsSession refreshed [] := by
  intro i member
  exact absurd member List.not_mem_nil

/-- What the command relies on between two of its requests. -/
structure Opened (refreshed : UInt64) (t : SecurityState) (s : EcuState) : Prop where
  session : s.session = udsSessionExtended
  refreshed : s.lastTesterPresentMs = refreshed
  security : s.security = t

section Command

variable {refreshed : UInt64} {t : SecurityState} {s : EcuState}

theorem Opened.extended (opened : Opened refreshed t s) : isExtendedSession s = true := by
  simp [isExtendedSession, opened.session]

theorem Opened.withSecurity (opened : Opened refreshed t s) (t' : SecurityState) :
    Opened refreshed t' { s with security := t' } :=
  ⟨opened.session, opened.refreshed, rfl⟩

/-- A step of another thread leaves the three fields alone if it keeps the session. -/
theorem Opened.step (opened : Opened refreshed t s) {i : ServerInput}
    (other : i.op = .s3Iteration ∨ i.op = .engineTick)
    (alive : i.op = .s3Iteration → i.amb.now - refreshed ≤ s3TimeoutMs) :
    Opened refreshed t (serverStep s i).1 := by
  rcases other with s3 | tick
  · have young : ¬ i.amb.now - s.lastTesterPresentMs > s3TimeoutMs := by
      rw [opened.refreshed]
      exact UInt64.not_lt.mpr (alive s3)
    simp only [serverStep, s3, s3Iteration, young, if_false, ite_self]
    exact opened
  · simp only [serverStep, tick]
    exact ⟨opened.session, opened.refreshed, opened.security⟩

theorem Opened.run {steps : List ServerInput} (opened : Opened refreshed t s)
    (others : NoRequest steps) (keeps : KeepsSession refreshed steps) :
    Opened refreshed t (run serverStep s steps) := by
  induction steps generalizing s with
  | nil => exact opened
  | cons i rest ih =>
      obtain ⟨other, others⟩ := List.forall_mem_cons.mp others
      obtain ⟨alive, keeps⟩ := List.forall_mem_cons.mp keeps
      rw [run_cons]
      exact ih (opened.step other alive) others keeps

/-- The other threads never leave the default session. -/
theorem session_default_run {steps : List ServerInput} (expired : s.session = udsSessionDefault)
    (others : NoRequest steps) : (run serverStep s steps).session = udsSessionDefault := by
  induction steps generalizing s with
  | nil => exact expired
  | cons i rest ih =>
      obtain ⟨other, others⟩ := List.forall_mem_cons.mp others
      have here : (serverStep s i).1.session = udsSessionDefault := by
        rcases other with s3 | tick
        · simp only [serverStep, s3, s3Iteration, expired, ne_eq, not_true_eq_false, if_false]
        · simp only [serverStep, tick]
          exact expired
      rw [run_cons]
      exact ih here others

/-- An iteration that finds the session too old expires it, and nothing reopens it. -/
theorem Opened.expired {steps : List ServerInput} (opened : Opened refreshed t s)
    (others : NoRequest steps) (slow : ¬ KeepsSession refreshed steps) :
    (Foundation.run serverStep s steps).session = udsSessionDefault := by
  induction steps generalizing s with
  | nil => exact absurd (keepsSession_nil refreshed) slow
  | cons i rest ih =>
      obtain ⟨other, others⟩ := List.forall_mem_cons.mp others
      rw [run_cons]
      by_cases alive : i.op = .s3Iteration → i.amb.now - refreshed ≤ s3TimeoutMs
      · refine ih (opened.step other alive) others ?_
        intro keeps
        exact slow (List.forall_mem_cons.mpr ⟨alive, keeps⟩)
      · obtain ⟨s3, old⟩ := Classical.not_imp.mp alive
        have late : i.amb.now - s.lastTesterPresentMs > s3TimeoutMs := by
          rw [opened.refreshed]
          exact UInt64.not_le.mp old
        have nonDefault : s.session ≠ udsSessionDefault := by
          rw [opened.session]
          decide
        have here : (serverStep s i).1.session = udsSessionDefault := by
          simp only [serverStep, s3, s3Iteration, nonDefault, ne_eq, not_false_eq_true, late,
            if_true, vecuSetSession]
        exact session_default_run here others

theorem serverStep_openSession (s : EcuState) (amb : Ambient) :
    serverStep s ⟨.request [0x10, 0x03], amb⟩ =
      (vecuSetSession amb.now s udsSessionExtended,
        some (.suppressible 0x03 [0x50, 0x03, 0x00, 0x32, 0x01, 0xF4] 6)) := by
  have row : udsProcessRequest amb s [0x10, 0x03] udsMaxMsgLen =
      hSessionControl amb s [0x10, 0x03] udsMaxMsgLen :=
    udsProcessRequest_row (u := .diagnosticSessionControl) amb s three_le_udsMaxMsgLen rfl rfl
  simp only [serverStep, row]
  rfl

theorem clientRequest_openSession (s : EcuState) (amb : Ambient) :
    clientRequest s amb [0x10, 0x03] =
      (vecuSetSession amb.now s udsSessionExtended, some [0x50, 0x03, 0x00, 0x32, 0x01, 0xF4]) := by
  simp only [clientRequest, serverStep_openSession]
  rfl

/-- In the default session the client raises on every security access. -/
theorem clientRequest_securityAccess_default (expired : s.session = udsSessionDefault)
    (amb : Ambient) (bytes : List UInt8) :
    (clientRequest s amb (0x27 :: bytes)).2 = none := by
  have gate : ¬ isExtendedSession s = true := by
    rw [isExtendedSession, expired]
    decide
  have row : udsProcessRequest amb s (0x27 :: bytes) udsMaxMsgLen =
      hSecurityAccess amb s (0x27 :: bytes) udsMaxMsgLen :=
    udsProcessRequest_securityAccess amb s rfl
  simp only [clientRequest, serverStep, row, hSecurityAccess]
  split_ifs
  · rfl
  · rfl

/-- The client takes the zero seed of an unlocked ECU for a seed. -/
theorem clientRequest_seed_unlocked (opened : Opened refreshed t s) (amb : Ambient)
    (unlocked : t.unlockedLevel ≠ 0) :
    clientRequest s amb [0x27, 0x01] =
      ({ s with security := { t with seedIssued := false } },
        some ([0x67, 0x01] ++ split32 0)) := by
  have level : ¬ t.unlockedLevel < 0x01 := by
    intro below
    apply unlocked
    have none : t.unlockedLevel.toNat < 1 := UInt8.lt_iff_toNat_lt.mp below
    exact UInt8.toNat_inj.mp (Nat.lt_one_iff.mp none)
  have answer : securityRequestSeed amb.now amb.entropy t 0x01 =
      ({ t with seedIssued := false }, .alreadyUnlocked) := by
    simp [securityRequestSeed, levelSupported, UInt8.not_lt.mp level]
  simp only [clientRequest, serverStep_requestSeed opened.extended, opened.security, answer]
  rfl

theorem clientRequest_seed_locked (opened : Opened refreshed t s) (amb : Ambient)
    (locked : t.unlockedLevel = 0) (clear : ¬ InLockout t amb.now) :
    ∃ fails, clientRequest s amb [0x27, 0x01] =
      ({ s with security := ⟨0, drawSeed amb.entropy, true, fails, 0⟩ },
        some ([0x67, 0x01] ++ split32 (drawSeed amb.entropy))) := by
  obtain ⟨fails, answer⟩ := securityRequestSeed_locked amb.entropy locked clear
  refine ⟨fails, ?_⟩
  simp only [clientRequest, serverStep_requestSeed opened.extended, opened.security, answer]
  rfl

theorem serverStep_sendKey_split32 (gate : isExtendedSession s = true) (amb : Ambient)
    (key : UInt32) :
    serverStep s ⟨.request ([0x27, 0x02] ++ split32 key), amb⟩ =
      ({ s with security := (securitySendKey amb.now amb.later s.security 0x01 key).1 },
        some (keyReply (securitySendKey amb.now amb.later s.security 0x01 key).2)) := by
  have sent := @serverStep_sendKey s amb gate (key >>> 24).toUInt8 (key >>> 16).toUInt8
    (key >>> 8).toUInt8 key.toUInt8
  have spelled : join32 (key >>> 24).toUInt8 (key >>> 16).toUInt8 (key >>> 8).toUInt8
      key.toUInt8 = key := split32_inj (split32_join32 _ _ _ _)
  rw [spelled] at sent
  exact sent

/-- A key that no seed was issued for makes the client raise. -/
theorem clientRequest_key_unissued (opened : Opened refreshed t s) (amb : Ambient)
    (unissued : t.seedIssued = false) (key : UInt32) :
    (clientRequest s amb ([0x27, 0x02] ++ split32 key)).2 = none := by
  have answer : securitySendKey amb.now amb.later t 0x01 key =
      (t, .error .requestSequenceError) := by
    simp [securitySendKey, levelSupported, unissued]
  simp only [clientRequest, serverStep_sendKey_split32 opened.extended, opened.security, answer]
  rfl

theorem clientRequest_key_right {seed : UInt32} {fails : UInt8}
    (opened : Opened refreshed ⟨0, seed, true, fails, 0⟩ s) (amb : Ambient) :
    clientRequest s amb ([0x27, 0x02] ++ split32 (seed ^^^ securityKeyConstant)) =
      ({ s with security := ⟨1, seed, false, 0, 0⟩ }, some [0x67, 0x02]) := by
  have answer : securitySendKey amb.now amb.later ⟨0, seed, true, fails, 0⟩ 0x01
      (seed ^^^ securityKeyConstant) = (⟨1, seed, false, 0, 0⟩, .ok ()) := by
    simp [securitySendKey, levelSupported]
  simp only [clientRequest, serverStep_sendKey_split32 opened.extended, opened.security, answer]
  rfl

/-- The command with its first two answers in: the rest is the key request. -/
theorem cmdUnlock_of_seed {w : UnlockWindow} {asked : EcuState} {seed : UInt32}
    (answer : clientRequest
        (run serverStep (vecuSetSession w.session.now s udsSessionExtended) w.beforeSeed)
        w.seed [0x27, 0x01] = (asked, some ([0x67, 0x01] ++ split32 seed))) :
    cmdUnlock 1 w s =
      let sent := clientRequest (run serverStep asked w.beforeKey) w.key
        ([0x27, 0x02] ++ split32 (seed ^^^ securityKeyConstant))
      (sent.1, sent.2.map fun _ => ()) := by
  have bytes : ([0x67, 0x01] ++ split32 seed : List UInt8).drop 2 = split32 seed := rfl
  have level : (1 : UInt8) + 1 = 0x02 := rfl
  simp only [cmdUnlock, clientRequest_openSession, answer, bytes, securityAlgo_split32, level]

/-- A command that finds the session expired at the seed request raises. -/
theorem cmdUnlock_expired {w : UnlockWindow}
    (expired : (run serverStep (vecuSetSession w.session.now s udsSessionExtended)
      w.beforeSeed).session = udsSessionDefault) : (cmdUnlock 1 w s).2 = none := by
  have raised := clientRequest_securityAccess_default expired w.seed [1]
  simp only [cmdUnlock, clientRequest_openSession, raised]

/-- **The unlock command works exactly from a locked ECU and within the session.** Whatever
the run before it and the readings outside a lock-out, with S3 iterations as complete steps
before and between its requests: the command ends without an exception and with level one
unlocked if and only if the ECU was locked when the command began, and the session that the
command opens does not expire between its requests. -/
theorem cmdUnlock_succeeds_iff (boot : UInt64) (past : List ServerInput) (w : UnlockWindow)
    (aloneBeforeSeed : NoRequest w.beforeSeed) (aloneBeforeKey : NoRequest w.beforeKey)
    (clear : ¬ InLockout (serverRun boot past).security w.seed.now) :
    let r := cmdUnlock 1 w (serverRun boot past)
    (r.2 = some () ∧ r.1.security.unlockedLevel = 1) ↔
      (serverRun boot past).security.unlockedLevel = 0 ∧
        KeepsSession w.session.now w.beforeSeed ∧ KeepsSession w.session.now w.beforeKey := by
  generalize serverRun boot past = s at clear ⊢
  intro r
  have opened : Opened w.session.now s.security
      (vecuSetSession w.session.now s udsSessionExtended) := ⟨rfl, rfl, rfl⟩
  have raises : r.2 = none → ¬ (r.2 = some () ∧ r.1.security.unlockedLevel = 1) := by
    rintro raised ⟨succeeded, -⟩
    exact absurd (raised.symm.trans succeeded) (by decide)
  by_cases aliveBeforeSeed : KeepsSession w.session.now w.beforeSeed
  swap
  · refine iff_of_false (raises ?_) fun right => aliveBeforeSeed right.2.1
    exact cmdUnlock_expired (opened.expired aloneBeforeSeed aliveBeforeSeed)
  have asking := opened.run aloneBeforeSeed aliveBeforeSeed
  by_cases locked : s.security.unlockedLevel = 0
  · obtain ⟨fails, answer⟩ := clientRequest_seed_locked asking w.seed locked clear
    have asked := asking.withSecurity ⟨0, drawSeed w.seed.entropy, true, fails, 0⟩
    by_cases aliveBeforeKey : KeepsSession w.session.now w.beforeKey
    · refine iff_of_true ?_ ⟨locked, aliveBeforeSeed, aliveBeforeKey⟩
      have accepted := clientRequest_key_right (asked.run aloneBeforeKey aliveBeforeKey) w.key
      simp only [r, cmdUnlock_of_seed answer, accepted, Option.map_some, and_self]
    · refine iff_of_false (raises ?_) fun right => aliveBeforeKey right.2.2
      have expired := asked.expired aloneBeforeKey aliveBeforeKey
      simp only [r, cmdUnlock_of_seed answer, List.cons_append,
        clientRequest_securityAccess_default expired, Option.map_none]
  · refine iff_of_false (raises ?_) fun right => locked right.1
    have answer := clientRequest_seed_unlocked asking w.seed locked
    have asked := asking.withSecurity { s.security with seedIssued := false }
    -- no seed is outstanding, so the key is refused in either session
    by_cases aliveBeforeKey : KeepsSession w.session.now w.beforeKey
    · have raised := clientRequest_key_unissued (asked.run aloneBeforeKey aliveBeforeKey) w.key
        rfl (0 ^^^ securityKeyConstant)
      simp only [r, cmdUnlock_of_seed answer, raised, Option.map_none]
    · have expired := asked.expired aloneBeforeKey aliveBeforeKey
      simp only [r, cmdUnlock_of_seed answer, List.cons_append,
        clientRequest_securityAccess_default expired, Option.map_none]

end Command

/-- The command at clock reading `t`, with no step of another thread in between. -/
def UnlockWindow.still (t : UInt64) : UnlockWindow := ⟨.still t, [], .still t, [], .still t⟩

theorem cmdUnlock_succeeds_after_boot :
    ((cmdUnlock 1 (.still 0) (serverRun 0 [])).2 = some () ∧
        (cmdUnlock 1 (.still 0) (serverRun 0 [])).1.security.unlockedLevel = 1) ↔
      (serverRun 0 []).security.unlockedLevel = 0 ∧
        KeepsSession 0 [] ∧ KeepsSession 0 [] :=
  cmdUnlock_succeeds_iff 0 [] (.still 0) noRequest_nil noRequest_nil (by decide)

/-- The requests of a first, successful command; the key fits the seed of `Ambient.still`. -/
def firstCommand : List ServerInput :=
  [.requestAt 0 [0x10, 0x03], .requestAt 0 [0x27, 0x01],
    .requestAt 0 [0x27, 0x02, 0xDE, 0xAD, 0xBE, 0xEE]]

/-- The second command in a row raises on the answer to its key. -/
theorem cmdUnlock_twice_fails :
    ¬ ∀ (boot : UInt64) (past : List ServerInput) (w : UnlockWindow),
      NoRequest w.beforeSeed → NoRequest w.beforeKey →
      KeepsSession w.session.now w.beforeSeed → KeepsSession w.session.now w.beforeKey →
      ¬ InLockout (serverRun boot past).security w.seed.now →
      (cmdUnlock 1 w (serverRun boot past)).2 = some () ∧
        (cmdUnlock 1 w (serverRun boot past)).1.security.unlockedLevel = 1 := by
  intro claim
  have succeeds := claim 0 firstCommand (.still 0) noRequest_nil noRequest_nil
    (keepsSession_nil 0) (keepsSession_nil 0) (by decide +kernel)
  exact absurd succeeds.1 (by decide +kernel)

end VecuUds
