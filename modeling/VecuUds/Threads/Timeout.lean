import VecuUds.Server.Authorisation
import VecuUds.Threads.S3

/-!
# The S3 timeout against whole requests

A timeout is two actions under two mutexes: the session is reverted, then security is
relocked. The dispatcher may handle requests in between. They see the default session
together with an unlock or a seed from before, and what they obtain themselves is taken
away again by the relock.

The comparison is with the serial orders, in which revert and relock are one step. The
requests of a gap are followed on both sides at once: in the interleaved run and in the
run that relocked first. The two agree as long as nobody uses what the relock is about
to take away.
-/

namespace VecuUds

open Foundation

/-- A request that the dispatcher handles in the gap, with its surroundings. -/
structure GapRequest where
  req : List UInt8
  amb : Ambient

def GapRequest.input (g : GapRequest) : ServerInput := ⟨.request g.req, g.amb⟩

/-- The outputs of a list of requests, and the state they lead to. -/
def handleAll (s : EcuState) (gap : List GapRequest) : EcuState × List (Option Reply) :=
  (run serverStep s (gap.map GapRequest.input),
    (trace serverStep s (gap.map GapRequest.input)).map Visit.output)

/-- The requests handled between the two actions of a timeout. -/
def interleaved (t : UInt64) (s : EcuState) (gap : List GapRequest) :
    EcuState × List (Option Reply) :=
  let r := handleAll (s3Revert t s) gap
  (s3Relock r.1, r.2)

/-- The same requests with the timeout as one step after the first `k` of them. -/
def serial (t : UInt64) (s : EcuState) (gap : List GapRequest) (k : Nat) :
    EcuState × List (Option Reply) :=
  let first := handleAll s (gap.take k)
  let rest := handleAll (s3Relock (s3Revert t first.1)) (gap.drop k)
  (rest.1, first.2 ++ rest.2)

/-- Equal responses, and equal final session, security and owner name. -/
def SameForTester (a b : EcuState × List (Option Reply)) : Prop :=
  a.2 = b.2 ∧ a.1.session = b.1.session ∧ a.1.security = b.1.security ∧ a.1.owner = b.1.owner

/-! ## Requests that notice the missing relock -/

/-- The request uses the unlocked level or the issued seed of this state. -/
def Uses (s : EcuState) (req : List UInt8) : Prop :=
  isExtendedSession s = true ∧
    ((byteAt req 0 = 0x27 ∧ req.length = 2 ∧ subFunction (byteAt req 1) = 0x01 ∧
        s.security.unlockedLevel ≠ 0) ∨
      (byteAt req 0 = 0x27 ∧ req.length = 6 ∧ subFunction (byteAt req 1) = 0x02 ∧
        s.security.seedIssued = true) ∨
      (byteAt req 0 = 0x2E ∧ 4 ≤ req.length ∧ byteAt req 1 = 0xF2 ∧ byteAt req 2 = 0x00 ∧
        s.security.unlockedLevel ≠ 0))

/-- The request replaces what there was of an unlock or a seed: a reset, or a request
for a new seed. -/
def Renews (amb : Ambient) (s : EcuState) (req : List UInt8) : Prop :=
  (byteAt req 0 = 0x11 ∧ req.length = 2 ∧
      (subFunction (byteAt req 1) = 0x01 ∨ subFunction (byteAt req 1) = 0x02 ∨
        subFunction (byteAt req 1) = 0x03)) ∨
    (isExtendedSession s = true ∧ byteAt req 0 = 0x27 ∧ req.length = 2 ∧
      subFunction (byteAt req 1) = 0x01 ∧ s.security.unlockedLevel = 0 ∧
      ¬ (s.security.lockUntilMs ≠ 0 ∧ amb.now < s.security.lockUntilMs))

/-- Nothing for the relock to take away. -/
def EcuState.Relocked (s : EcuState) : Prop := s.security.relock = s.security

instance (s : EcuState) (req : List UInt8) : Decidable (Uses s req) :=
  inferInstanceAs (Decidable (_ ∧ _))

instance (amb : Ambient) (s : EcuState) (req : List UInt8) : Decidable (Renews amb s req) :=
  inferInstanceAs (Decidable (_ ∨ _))

instance (s : EcuState) : Decidable s.Relocked := inferInstanceAs (Decidable (_ = _))

/-- The gap is harmless: until security is renewed no request uses what was there before
the revert, and what is obtained afterwards is gone again at the relock. -/
def Harmless : Bool → EcuState → List GapRequest → Prop
  | renewed, s, [] => renewed = true → s.Relocked
  | renewed, s, g :: rest =>
      (renewed = false → ¬ Uses s g.req) ∧
        Harmless (renewed || decide (Renews g.amb s g.req)) (serverStep s g.input).1 rest

/-! ## One request on both sides -/

/-- What a request does after the relock, compared with what it does before it. -/
def Agrees (renews : Prop) (before after : EcuState × Reply) : Prop :=
  after.2 = before.2 ∧ (renews → after.1 = before.1) ∧ (¬ renews → after.1 = s3Relock before.1)

section Handlers

variable (amb : Ambient) {s : EcuState} {req : List UInt8} (cap : Nat)

/-- A handler that does not look at the security state. -/
theorem Agrees.of_commutes {before after : EcuState × Reply} {renews : Prop} (other : ¬ renews)
    (commutes : after = (s3Relock before.1, before.2)) : Agrees renews before after := by
  subst commutes
  exact ⟨rfl, fun renewed => absurd renewed other, fun _ => rfl⟩

theorem hSessionControl_relock : hSessionControl amb (s3Relock s) req cap =
    (s3Relock (hSessionControl amb s req cap).1, (hSessionControl amb s req cap).2) := by
  simp only [hSessionControl]
  split_ifs <;> rfl

theorem hClearDtc_relock : hClearDtc amb (s3Relock s) req cap =
    (s3Relock (hClearDtc amb s req cap).1, (hClearDtc amb s req cap).2) := by
  simp only [hClearDtc]
  split_ifs <;> rfl

theorem hReadDtc_relock : hReadDtc amb (s3Relock s) req cap =
    (s3Relock (hReadDtc amb s req cap).1, (hReadDtc amb s req cap).2) := by
  simp only [hReadDtc, s3Relock_dtcs]
  split_ifs with short other len long
  · rfl
  · rfl
  · rfl
  · simp only [long, if_true]
  · simp only [long, if_false]

theorem hTesterPresent_relock : hTesterPresent amb (s3Relock s) req cap =
    (s3Relock (hTesterPresent amb s req cap).1, (hTesterPresent amb s req cap).2) := by
  simp only [hTesterPresent]
  split_ifs <;> rfl

theorem didPayload_relock (e : DidEntry DidReadFn DidWriteFn) :
    didPayload (s3Relock s) e = didPayload s e := by
  unfold didPayload
  cases e.read with
  | none => rfl
  | some fn => cases fn <;> rfl

theorem hReadDid_relock : hReadDid amb (s3Relock s) req cap =
    (s3Relock (hReadDid amb s req cap).1, (hReadDid amb s req cap).2) := by
  simp only [hReadDid, didPayload_relock, s3Relock_dids]
  split_ifs
  · rfl
  · cases didTableLookup s.dids (join16 (byteAt req 1) (byteAt req 2)) with
    | none => rfl
    | some e =>
        simp only
        cases didPayload s e with
        | bytes payload =>
            simp only
            split_ifs <;> rfl
        | refused => rfl
        | overflow => rfl

theorem hEcuReset_agrees (h : byteAt req 0 = 0x11) :
    Agrees (Renews amb s req) (hEcuReset amb s req cap) (hEcuReset amb (s3Relock s) req cap) := by
  have notSeed : byteAt req 0 ≠ 0x27 := by rw [h]; decide
  simp only [hEcuReset]
  by_cases len : req.length = 2
  · by_cases known : subFunction (byteAt req 1) = 0x01 ∨ subFunction (byteAt req 1) = 0x02 ∨
        subFunction (byteAt req 1) = 0x03
    · have unknown : ¬ (subFunction (byteAt req 1) ≠ 0x01 ∧ subFunction (byteAt req 1) ≠ 0x02 ∧
          subFunction (byteAt req 1) ≠ 0x03) := by tauto
      have renews : Renews amb s req := .inl ⟨h, len, known⟩
      simp only [len, ne_eq, not_true_eq_false, if_false, unknown]
      exact ⟨rfl, fun _ => rfl, fun other => absurd renews other⟩
    · have unknown : subFunction (byteAt req 1) ≠ 0x01 ∧ subFunction (byteAt req 1) ≠ 0x02 ∧
          subFunction (byteAt req 1) ≠ 0x03 := by tauto
      have other : ¬ Renews amb s req := by simp [Renews, known, notSeed]
      simp only [len, ne_eq, not_true_eq_false, if_false, unknown, not_false_eq_true, and_self,
        if_true]
      exact .of_commutes other rfl
  · have other : ¬ Renews amb s req := by simp [Renews, len]
    simp only [len, ne_eq, not_false_eq_true, if_true]
    exact .of_commutes other rfl

/-- A seed request at the supported level, on a security state and on its relocked
version. -/
theorem securityRequestSeed_relock (now : UInt64) (entropy : Option UInt32) {t : SecurityState}
    (locked : t.unlockedLevel = 0) :
    (securityRequestSeed now entropy t.relock 0x01).2 = (securityRequestSeed now entropy t 0x01).2 ∧
      (securityRequestSeed now entropy t.relock 0x01).1 =
        if t.lockUntilMs ≠ 0 ∧ now < t.lockUntilMs then
          (securityRequestSeed now entropy t 0x01).1.relock
        else (securityRequestSeed now entropy t 0x01).1 := by
  by_cases armed : t.lockUntilMs = 0
  · simp [securityRequestSeed, levelSupported, SecurityState.relock, locked, issueSeed, armed]
  · by_cases early : now < t.lockUntilMs
    · simp [securityRequestSeed, levelSupported, SecurityState.relock, locked, armed, early]
    · simp [securityRequestSeed, levelSupported, SecurityState.relock, locked, issueSeed, armed,
        early]

/-- Without a seed, a key is out of sequence on both sides. -/
theorem securitySendKey_relock {now later : UInt64} {key : UInt32} {t : SecurityState}
    {level : UInt8} (unissued : level = 0x01 → t.seedIssued = false) :
    securitySendKey now later t.relock level key =
      ((securitySendKey now later t level key).1.relock,
        (securitySendKey now later t level key).2) := by
  by_cases known : level = 0x01
  · simp [securitySendKey, SecurityState.relock, levelSupported, known, unissued known]
  · simp [securitySendKey, levelSupported, known]

theorem hRequestSeed_agrees (h : byteAt req 0 = 0x27) (gate : isExtendedSession s = true)
    (unused : ¬ Uses s req) :
    Agrees (Renews amb s req) (hRequestSeed amb s req) (hRequestSeed amb (s3Relock s) req) := by
  have notReset : byteAt req 0 ≠ 0x11 := by rw [h]; decide
  simp only [hRequestSeed]
  by_cases len : req.length = 2
  · simp only [len, ne_eq, not_true_eq_false, if_false, s3Relock_security]
    by_cases known : subFunction (byteAt req 1) = 0x01
    · have locked : s.security.unlockedLevel = 0 := by
        by_contra level
        exact unused ⟨gate, .inl ⟨h, len, known, level⟩⟩
      have renews : Renews amb s req ↔
          ¬ (s.security.lockUntilMs ≠ 0 ∧ amb.now < s.security.lockUntilMs) := by
        simp [Renews, h, len, known, gate, locked]
      obtain ⟨sameResult, sameState⟩ :=
        securityRequestSeed_relock amb.now amb.entropy locked
      rw [known, sameResult, sameState]
      generalize securityRequestSeed amb.now amb.entropy s.security 0x01 = r
      obtain ⟨t, result⟩ := r
      refine ⟨?_, ?_, ?_⟩
      · cases result <;> rfl
      · intro renewed
        rw [if_neg (renews.mp renewed)]
        cases result <;> rfl
      · intro other
        rw [if_pos (by_contra fun free => other (renews.mpr free))]
        cases result <;> rfl
    · have other : ¬ Renews amb s req := by simp [Renews, known, notReset]
      simp only [securityRequestSeed, levelSupported, known, decide_false, Bool.false_eq_true,
        not_false_eq_true, if_true]
      exact .of_commutes other rfl
  · have other : ¬ Renews amb s req := by simp [Renews, len]
    simp only [len, ne_eq, not_false_eq_true, if_true]
    exact .of_commutes other rfl

theorem hSendKey_agrees (h : byteAt req 0 = 0x27) (gate : isExtendedSession s = true)
    (even : ¬ subFunction (byteAt req 1) = 0x01) (unused : ¬ Uses s req) :
    Agrees (Renews amb s req) (hSendKey amb s req) (hSendKey amb (s3Relock s) req) := by
  have other : ¬ Renews amb s req := by
    have notReset : byteAt req 0 ≠ 0x11 := by rw [h]; decide
    simp [Renews, notReset, even]
  refine .of_commutes other ?_
  simp only [hSendKey]
  by_cases len : req.length = 6
  · simp only [len, ne_eq, not_true_eq_false, if_false, s3Relock_security]
    have unissued : subFunction (byteAt req 1) - 1 = 0x01 → s.security.seedIssued = false := by
      intro level
      by_contra issued
      exact unused ⟨gate, .inr (.inl ⟨h, len, pred_eq_one.mp level, by simpa using issued⟩)⟩
    rw [securitySendKey_relock unissued]
    generalize securitySendKey amb.now amb.later s.security (subFunction (byteAt req 1) - 1) _ = r
    obtain ⟨t, result⟩ := r
    cases result <;> rfl
  · simp only [len, ne_eq, not_false_eq_true, if_true]

theorem hSecurityAccess_agrees (h : byteAt req 0 = 0x27) (unused : ¬ Uses s req) :
    Agrees (Renews amb s req) (hSecurityAccess amb s req cap)
      (hSecurityAccess amb (s3Relock s) req cap) := by
  have sameGate : isExtendedSession (s3Relock s) = isExtendedSession s := rfl
  simp only [hSecurityAccess, sameGate]
  by_cases short : req.length < 2
  · have other : ¬ Renews amb s req := by
      rintro (⟨-, len, -⟩ | ⟨-, -, len, -⟩) <;> omega
    simp only [short, if_true]
    exact .of_commutes other rfl
  by_cases gate : isExtendedSession s = true
  · by_cases odd : subFunction (byteAt req 1) &&& 0x01 = 0x01
    · simpa [short, gate, odd] using hRequestSeed_agrees amb h gate unused
    · have even : ¬ subFunction (byteAt req 1) = 0x01 := by
        intro one
        rw [one] at odd
        exact odd rfl
      simpa [short, gate, odd] using hSendKey_agrees amb h gate even unused
  · have other : ¬ Renews amb s req := by
      have notReset : byteAt req 0 ≠ 0x11 := by rw [h]; decide
      simp [Renews, notReset, gate]
    simp only [short, if_false, gate, not_false_eq_true, if_true, Bool.false_eq_true]
    exact .of_commutes other rfl

theorem hWriteDid_relock (h : byteAt req 0 = 0x2E) (registered : s.dids = ecuDids)
    (unused : ¬ Uses s req) : hWriteDid amb (s3Relock s) req cap =
      (s3Relock (hWriteDid amb s req cap).1, (hWriteDid amb s req cap).2) := by
  have sameGate : isExtendedSession (s3Relock s) = isExtendedSession s := rfl
  simp only [hWriteDid, s3Relock_dids, registered, sameGate]
  by_cases short : req.length < 4
  · simp only [short, if_true]
  cases found : didTableLookup ecuDids (join16 (byteAt req 1) (byteAt req 2)) with
  | none => simp only [short, if_false]
  | some e =>
      cases writable : e.write with
      | none => simp only [short, if_false, writable]
      | some fn =>
          have member : e ∈ ecuDids.entries := List.mem_of_find?_eq_some found
          obtain ⟨did, extended, security⟩ := ecuDids_writable member writable
          by_cases gate : isExtendedSession s = true
          swap
          · simp [short, writable, extended, gate]
          -- The write reaches the security gate, and finds it shut on both sides.
          have matched : e.did = join16 (byteAt req 1) (byteAt req 2) := by
            simpa using List.find?_some found
          obtain ⟨hi, lo⟩ : byteAt req 1 = 0xF2 ∧ byteAt req 2 = 0x00 := by
            apply join16_inj
            rw [← matched, did]
            rfl
          have locked : s.security.unlockedLevel = 0 := by
            by_contra level
            exact unused ⟨gate, .inr (.inr ⟨h, by omega, hi, lo, level⟩)⟩
          simp [short, writable, gate, security, securityIsUnlocked, SecurityState.relock, locked]

/-- **One request on both sides of the relock.** -/
theorem udsProcessRequest_agrees (registered : s.dids = ecuDids) (unused : ¬ Uses s req) :
    Agrees (Renews amb s req) (udsProcessRequest amb s req udsMaxMsgLen)
      (udsProcessRequest amb (s3Relock s) req udsMaxMsgLen) := by
  simp only [udsProcessRequest]
  by_cases empty : req.length = 0 ∨ udsMaxMsgLen < 3
  · have other : ¬ Renews amb s req := by
      have none : req.length = 0 := by simpa [udsMaxMsgLen] using empty
      simp [Renews, none]
    simp only [empty, if_true]
    exact .of_commutes other rfl
  simp only [empty, if_false]
  have plain : byteAt req 0 ≠ 0x11 → byteAt req 0 ≠ 0x27 → ¬ Renews amb s req := by
    intro notReset notSeed
    simp [Renews, notReset, notSeed]
  have other : ∀ {code : UInt8}, byteAt req 0 = code → code ≠ 0x11 ∧ code ≠ 0x27 →
      ¬ Renews amb s req := by
    rintro _ rfl ⟨notReset, notSeed⟩
    exact plain notReset notSeed
  generalize same : List.find? _ _ = found
  have row : DispatchRow (byteAt req 0) found := same ▸ dispatch_row _
  cases row with
  | sessionControl code =>
      exact .of_commutes (other code (by decide)) (hSessionControl_relock amb udsMaxMsgLen)
  | ecuReset code => exact hEcuReset_agrees amb udsMaxMsgLen code
  | clearDtc code =>
      exact .of_commutes (other code (by decide)) (hClearDtc_relock amb udsMaxMsgLen)
  | readDtc code =>
      exact .of_commutes (other code (by decide)) (hReadDtc_relock amb udsMaxMsgLen)
  | readDid code =>
      exact .of_commutes (other code (by decide)) (hReadDid_relock amb udsMaxMsgLen)
  | securityAccess code => exact hSecurityAccess_agrees amb udsMaxMsgLen code unused
  | writeDid code =>
      exact .of_commutes (other code (by decide))
        (hWriteDid_relock amb udsMaxMsgLen code registered unused)
  | testerPresent code =>
      exact .of_commutes (other code (by decide)) (hTesterPresent_relock amb udsMaxMsgLen)
  | unsupported unknown =>
      exact .of_commutes (plain (unknown .ecuReset) (unknown .securityAccess)) rfl

end Handlers

/-! ## Whole gaps -/

theorem s3Relock_of_relocked {s : EcuState} (relocked : s.Relocked) : s3Relock s = s := by
  unfold s3Relock
  rw [show s.security.relock = s.security from relocked]

theorem handleAll_nil (s : EcuState) : handleAll s [] = (s, []) := rfl

theorem handleAll_cons (s : EcuState) (g : GapRequest) (rest : List GapRequest) :
    handleAll s (g :: rest) =
      ((handleAll (serverStep s g.input).1 rest).1,
        (serverStep s g.input).2 :: (handleAll (serverStep s g.input).1 rest).2) := rfl

/-- A harmless gap leads to the same responses and the same state on both sides. -/
theorem Harmless.agrees {renewed : Bool} {s z : EcuState} {gap : List GapRequest}
    (harmless : Harmless renewed s gap) (registered : s.dids = ecuDids)
    (fresh : renewed = true → z = s) (stale : renewed = false → z = s3Relock s) :
    handleAll z gap = (s3Relock (handleAll s gap).1, (handleAll s gap).2) := by
  induction gap generalizing renewed s z with
  | nil =>
      cases renewed with
      | false => rw [stale rfl]; rfl
      | true =>
          rw [fresh rfl, handleAll_nil, s3Relock_of_relocked (harmless rfl)]
  | cons g rest ih =>
      obtain ⟨unused, later⟩ := harmless
      have still : (serverStep s g.input).1.dids = ecuDids :=
        (serverStep_effect registered g.input).dids.trans registered
      rw [handleAll_cons, handleAll_cons]
      cases renewed with
      | true =>
          have same := ih later still (fun _ => rfl) (by simp)
          have relocked := congrArg Prod.fst same
          rw [fresh rfl]
          exact Prod.ext relocked rfl
      | false =>
          have agrees : Agrees (Renews g.amb s g.req)
              (udsProcessRequest g.amb s g.req udsMaxMsgLen)
              (udsProcessRequest g.amb z g.req udsMaxMsgLen) := by
            rw [stale rfl]
            exact udsProcessRequest_agrees g.amb registered (unused rfl)
          have sameReply : (serverStep z g.input).2 = (serverStep s g.input).2 :=
            congrArg some agrees.1
          have same := ih later still (fun renews => agrees.2.1 (by simpa using renews))
            (fun other => agrees.2.2 (by simpa using other))
          rw [sameReply]
          change ((handleAll (udsProcessRequest g.amb z g.req udsMaxMsgLen).1 rest).1, _ ::
            (handleAll (udsProcessRequest g.amb z g.req udsMaxMsgLen).1 rest).2) = _
          rw [same]

/-- What a gap obtains after renewing security is gone at its end. -/
theorem Harmless.relocked {s : EcuState} {gap : List GapRequest} (harmless : Harmless true s gap) :
    (handleAll s gap).1.Relocked := by
  induction gap generalizing s with
  | nil => exact harmless rfl
  | cons g rest ih => exact ih harmless.2

/-- An accepted key answers a seed of the state it meets. -/
theorem uses_of_accepted {s : EcuState} (registered : s.dids = ecuDids) (g : GapRequest)
    (accepted : response (visit serverStep s g.input) = [0x67, 0x02]) : Uses s g.req := by
  have effect := serverStep_effect registered g.input
  generalize reply : (serverStep s g.input).2 = r at effect
  generalize (serverStep s g.input).1 = s' at effect
  have answered : (r.map Reply.resp).getD [] = [0x67, 0x02] := by rw [← reply]; exact accepted
  cases effect with
  | request req op effect =>
      have same : g.req = req := ServerOp.request.inj op
      cases effect with
      | keyAccepted raw k₀ k₁ k₂ k₃ request known gate t effect =>
          rw [same, request]
          cases effect with
          | accepted issued => exact ⟨gate, .inr (.inl ⟨rfl, rfl, known, issued⟩)⟩
      | _ => simp [Reply.negative, Reply.suppressible, Reply.positive, buildNrc,
          udsNegativeResponse] at answered
  | _ => simp [Reply.dropped] at answered

/-- A key accepted in a harmless gap leaves nothing for the relock to undo. -/
theorem Harmless.relocked_of_accepted {renewed : Bool} {s : EcuState} {gap : List GapRequest}
    (harmless : Harmless renewed s gap) (registered : s.dids = ecuDids)
    (accepted : ∃ v ∈ trace serverStep s (gap.map GapRequest.input), response v = [0x67, 0x02]) :
    (handleAll s gap).1.Relocked := by
  induction gap generalizing renewed s with
  | nil =>
      obtain ⟨v, member, -⟩ := accepted
      simp at member
  | cons g rest ih =>
      cases renewed with
      | true => exact harmless.relocked
      | false =>
          obtain ⟨unused, later⟩ := harmless
          obtain ⟨v, member, answered⟩ := accepted
          rw [List.map_cons, trace_cons] at member
          rcases List.mem_cons.mp member with rfl | member
          · exact absurd (uses_of_accepted registered g answered) (unused rfl)
          · exact ih later ((serverStep_effect registered g.input).dids.trans registered)
              ⟨v, member, answered⟩

/-- Runs with equal outputs show the same responses, request by request. -/
private theorem responses_eq {s z : EcuState} {first : List GapRequest} {g : GapRequest}
    {rest : List GapRequest}
    (same : (handleAll z (first ++ g :: rest)).2 = (handleAll s (first ++ g :: rest)).2) :
    (trace serverStep z (first.map GapRequest.input)).map response =
        (trace serverStep s (first.map GapRequest.input)).map response ∧
      response (visit serverStep (handleAll z first).1 g.input) =
        response (visit serverStep (handleAll s first).1 g.input) := by
  simp only [handleAll, List.map_append, List.map_cons, trace_append, trace_cons] at same
  have lengths : ∀ (s : EcuState) (inputs : List ServerInput),
      (trace serverStep s inputs).length = inputs.length := by
    intro s inputs
    induction inputs generalizing s with
    | nil => rfl
    | cons i rest ih => simp [ih]
  obtain ⟨before, after⟩ := List.append_inj same (by simp [lengths])
  obtain ⟨here, -⟩ := List.cons.inj after
  have factor : ∀ visits : List ServerVisit, visits.map response =
      (visits.map Visit.output).map fun output => (output.map Reply.resp).getD [] := by
    intro visits
    rw [List.map_map]
    rfl
  exact ⟨by rw [factor, factor, before], congrArg (fun o => (Option.map Reply.resp o).getD []) here⟩

/-- **A timeout is atomic for the tester if the gap is harmless.** The interleaved run
is the serial order that puts revert and relock before all requests of the gap. A write
that succeeds in the gap has a key accepted in the gap before it, and after such a key
the relock has nothing left to undo. -/
theorem s3_timeout_atomic (boot : UInt64) (past : List ServerInput) (t : UInt64)
    (gap : List GapRequest)
    (harmless : Harmless (decide (serverRun boot past).Relocked) (s3Revert t (serverRun boot past))
      gap) :
    let s := serverRun boot past
    SameForTester (interleaved t s gap) (serial t s gap 0) ∧
      (∀ first g rest, gap = first ++ g :: rest →
        response (visit serverStep (handleAll (s3Revert t s) first).1 g.input) =
          [0x6E, 0xF2, 0x00] →
        ∃ v ∈ trace serverStep (s3Revert t s) (first.map GapRequest.input),
          response v = [0x67, 0x02]) ∧
      ((∃ v ∈ trace serverStep (s3Revert t s) (gap.map GapRequest.input),
          response v = [0x67, 0x02]) →
        s3Relock (handleAll (s3Revert t s) gap).1 = (handleAll (s3Revert t s) gap).1) := by
  intro s
  have registered : (s3Revert t s).dids = ecuDids := serverRun_dids boot past
  have agrees : handleAll (s3Relock (s3Revert t s)) gap =
      (s3Relock (handleAll (s3Revert t s) gap).1, (handleAll (s3Revert t s) gap).2) := by
    refine harmless.agrees registered ?_ (fun _ => rfl)
    intro relocked
    exact s3Relock_of_relocked (of_decide_eq_true relocked : s.Relocked)
  have serialFirst : serial t s gap 0 = interleaved t s gap := by
    simp only [serial, interleaved, List.take_zero, List.drop_zero, handleAll_nil, agrees,
      List.nil_append]
  refine ⟨by rw [serialFirst]; exact ⟨rfl, rfl, rfl, rfl⟩, ?_, ?_⟩
  · rintro first g rest rfl written
    have outputs : (handleAll (s3Relock (s3Revert t s)) (first ++ g :: rest)).2 =
        (handleAll (s3Revert t s) (first ++ g :: rest)).2 := by rw [agrees]
    obtain ⟨before, here⟩ := responses_eq outputs
    rw [← here] at written
    have still := run_dids (s := s3Relock (s3Revert t s)) registered (first.map GapRequest.input)
    have unlocked := (serverStep_effect still g.input).write_unlocked written
    obtain ⟨v, member, accepted⟩ :=
      unlocked_by_accepted_key (s := s3Relock (s3Revert t s)) registered rfl _ unlocked
    have shown : [0x67, 0x02] ∈
        (trace serverStep (s3Relock (s3Revert t s)) (first.map GapRequest.input)).map response :=
      List.mem_map.mpr ⟨v, member, accepted⟩
    rw [before] at shown
    exact List.mem_map.mp shown
  · intro accepted
    exact s3Relock_of_relocked (harmless.relocked_of_accepted registered accepted)

/-- A request of a gap, while the clock stands at six seconds. -/
def GapRequest.late (req : List UInt8) : GapRequest := ⟨req, .still 6000⟩

/-- A reset, a complete unlock with a write, and a reset again. -/
def renewedGap : List GapRequest :=
  [.late [0x11, 0x01], .late [0x10, 0x03], .late [0x27, 0x01],
    .late [0x27, 0x02, 0xDE, 0xAD, 0xBE, 0xEE], .late [0x2E, 0xF2, 0x00, 0x41],
    .late [0x11, 0x01]]

instance decidableHarmless : (renewed : Bool) → (s : EcuState) → (gap : List GapRequest) →
    Decidable (Harmless renewed s gap)
  | _, _, [] => inferInstanceAs (Decidable (_ → _))
  | renewed, s, g :: rest =>
      have := decidableHarmless (renewed || decide (Renews g.amb s g.req))
        (serverStep s g.input).1 rest
      inferInstanceAs (Decidable ((_ → _) ∧ _))

theorem s3_timeout_atomic_renewed :
    SameForTester (interleaved 6000 (serverRun 0 unlockSequence) renewedGap)
      (serial 6000 (serverRun 0 unlockSequence) renewedGap 0) :=
  (s3_timeout_atomic 0 unlockSequence 6000 renewedGap (by decide +kernel)).1

/-- The S3 thread finds the session expired at this reading. -/
def S3Expired (now : UInt64) (s : EcuState) : Prop :=
  s.session ≠ udsSessionDefault ∧ now - s.lastTesterPresentMs > s3TimeoutMs

instance (now : UInt64) (s : EcuState) : Decidable (S3Expired now s) :=
  inferInstanceAs (Decidable (_ ∧ _))

/-- A session request and a write in the gap use the unlock that the timeout is about to
take away: no serial order accepts the write and ends in the extended session. -/
theorem s3_timeout_not_atomic :
    ¬ ∀ (boot : UInt64) (past : List ServerInput) (t : UInt64) (gap : List GapRequest),
      ClockFrom boot (past ++ ⟨.s3Iteration, .still t⟩ :: gap.map GapRequest.input) →
      S3Expired t (serverRun boot past) →
        ∃ k ≤ gap.length, SameForTester (interleaved t (serverRun boot past) gap)
          (serial t (serverRun boot past) gap k) := by
  intro claim
  obtain ⟨k, bound, replies, session, -⟩ := claim 0 unlockSequence 6000
    [.late [0x10, 0x03], .late [0x2E, 0xF2, 0x00, 0x41]] (by decide) (by decide +kernel)
  change k ≤ 2 at bound
  obtain rfl | rfl | rfl : k = 0 ∨ k = 1 ∨ k = 2 := by omega
  · revert replies
    decide +kernel
  · revert replies
    decide +kernel
  · revert session
    decide +kernel

end VecuUds
