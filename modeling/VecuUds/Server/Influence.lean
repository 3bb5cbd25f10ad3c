import VecuUds.Foundation.Footprint
import VecuUds.Server.Answers

/-!
# What can influence an answer

The state of the ECU has five parts: the session with its timestamp, the security state, the
owner name, the trouble codes and the engine. Each input writes some of them, and what it
answers and writes is decided by some of them. The gates of the services are the only way from
one part to another: the session decides what happens to the security state, and both decide
what happens to the owner name.

So most of a run has no bearing on a given answer. The application thread decides what three
identifiers carry and nothing else, a cleared trouble code shows in trouble code reports alone,
and no amount of reading changes any answer.
-/

namespace VecuUds

open Foundation

/-- The parts of the state that the services share. -/
inductive StatePart where
  | session
  | security
  | owner
  | codes
  | engine
  deriving DecidableEq, Repr

/-- The part is the same in both states. -/
def StatePart.same : StatePart → EcuState → EcuState → Prop
  | .session, s, t =>
      (s.session, s.lastTesterPresentMs) = (t.session, t.lastTesterPresentMs)
  | .security, s, t => s.security = t.security
  | .owner, s, t => s.owner = t.owner
  | .codes, s, t => s.dtcs = t.dtcs
  | .engine, s, t => s.app = t.app

theorem StatePart.equivalence (p : StatePart) : Equivalence p.same := by
  cases p with
  | _ => exact ⟨fun _ => rfl, Eq.symm, Eq.trans⟩

/-- The parts that a service may write. -/
def serviceWrites (sid : UInt8) : List StatePart :=
  if sid = 0x10 then [.session]
  else if sid = 0x11 then [.session, .security]
  else if sid = 0x14 then [.codes]
  else if sid = 0x27 then [.security]
  else if sid = 0x2E then [.owner]
  else if sid = 0x3E then [.session]
  else []

/-- The part behind a read callback. -/
def DidReadFn.part : DidReadFn → StatePart
  | .ownerRead => .owner
  | _ => .engine

/-- The parts behind a data identifier. -/
def didParts (did : UInt16) : List StatePart :=
  match didTableLookup ecuDids did with
  | some e => e.read.toList.map DidReadFn.part
  | none => []

/-- The parts that decide what a request is answered and what it writes. -/
def requestReads (req : List UInt8) : List StatePart :=
  let sid := byteAt req 0
  if sid = 0x19 then [.codes]
  else if sid = 0x22 then didParts (join16 (byteAt req 1) (byteAt req 2))
  else if sid = 0x27 ∨ sid = 0x2E then [.session, .security]
  else []

/-- The parts that an input may write. -/
def ServerInput.writes (i : ServerInput) : List StatePart :=
  match i.op with
  | .request req => serviceWrites (byteAt req 0)
  | .s3Iteration => [.session, .security]
  | .engineTick => [.engine]

/-- The parts that decide what an input does. -/
def ServerInput.reads (i : ServerInput) : List StatePart :=
  match i.op with
  | .request req => requestReads req
  | .s3Iteration => [.session]
  | .engineTick => [.engine]

/-! ## Handlers -/

/-- Two states come to the same answer, and the parts they agree on stay in agreement. -/
structure SameAnswer (s t : EcuState) (a b : EcuState × Reply) : Prop where
  reply : a.2 = b.2
  carry : ∀ p : StatePart, p.same s t → p.same a.1 b.1

section Handlers

variable (amb : Ambient) {s t : EcuState} {req : List UInt8} (cap : Nat)

/-- An answer that leaves the state alone. -/
theorem SameAnswer.unchanged (reply : Reply) : SameAnswer s t (s, reply) (t, reply) :=
  ⟨rfl, fun _ same => same⟩

/-- An answer that replaces the security state. -/
theorem SameAnswer.secured (security : SecurityState) (reply : Reply) :
    SameAnswer s t ({ s with security := security }, reply)
      ({ t with security := security }, reply) := by
  refine ⟨rfl, fun p same => ?_⟩
  cases p with
  | security => rfl
  | _ => exact same

/-- An answer that enters a session. -/
theorem SameAnswer.entered (now : UInt64) (session : UInt8) (reply : Reply) :
    SameAnswer s t (vecuSetSession now s session, reply)
      (vecuSetSession now t session, reply) := by
  refine ⟨rfl, fun p same => ?_⟩
  cases p with
  | session => rfl
  | _ => exact same

theorem hSessionControl_sameAnswer :
    SameAnswer s t (hSessionControl amb s req cap) (hSessionControl amb t req cap) := by
  simp only [hSessionControl]
  split_ifs
  · exact .unchanged _
  · exact .entered _ _ _
  · exact .entered _ _ _
  · exact .unchanged _

theorem hEcuReset_sameAnswer :
    SameAnswer s t (hEcuReset amb s req cap) (hEcuReset amb t req cap) := by
  simp only [hEcuReset]
  split_ifs
  · exact .unchanged _
  · exact .unchanged _
  · refine ⟨rfl, fun p same => ?_⟩
    cases p with
    | session => rfl
    | security => exact congrArg SecurityState.reset same
    | _ => exact same

theorem hClearDtc_sameAnswer :
    SameAnswer s t (hClearDtc amb s req cap) (hClearDtc amb t req cap) := by
  simp only [hClearDtc]
  split_ifs
  · exact .unchanged _
  · refine ⟨rfl, fun p same => ?_⟩
    cases p with
    | codes => exact congrArg dtcMemClearAll same
    | _ => exact same
  · exact .unchanged _

theorem hReadDtc_sameAnswer (codes : s.dtcs = t.dtcs) :
    SameAnswer s t (hReadDtc amb s req cap) (hReadDtc amb t req cap) := by
  simp only [hReadDtc, codes]
  split_ifs <;> exact .unchanged _

theorem hTesterPresent_sameAnswer :
    SameAnswer s t (hTesterPresent amb s req cap) (hTesterPresent amb t req cap) := by
  simp only [hTesterPresent]
  split_ifs
  · exact .unchanged _
  · exact .unchanged _
  · refine ⟨rfl, fun p same => ?_⟩
    cases p with
    | session => exact congrArg (fun x => (x, amb.now)) (Prod.mk.inj same).1
    | _ => exact same

theorem hRequestSeed_sameAnswer (security : s.security = t.security) :
    SameAnswer s t (hRequestSeed amb s req) (hRequestSeed amb t req) := by
  simp only [hRequestSeed, security]
  split_ifs
  · exact .unchanged _
  · cases (securityRequestSeed amb.now amb.entropy t.security (subFunction (byteAt req 1))).2 with
    | _ => exact .secured _ _

theorem hSendKey_sameAnswer (security : s.security = t.security) :
    SameAnswer s t (hSendKey amb s req) (hSendKey amb t req) := by
  simp only [hSendKey, security]
  split_ifs
  · exact .unchanged _
  · cases (securitySendKey amb.now amb.later t.security (subFunction (byteAt req 1) - 1)
      (join32 (byteAt req 2) (byteAt req 3) (byteAt req 4) (byteAt req 5))).2 with
    | _ => exact .secured _ _

theorem isExtendedSession_congr (session : s.session = t.session) :
    isExtendedSession s = isExtendedSession t := by
  simp only [isExtendedSession, session]

theorem hSecurityAccess_sameAnswer (session : s.session = t.session)
    (security : s.security = t.security) :
    SameAnswer s t (hSecurityAccess amb s req cap) (hSecurityAccess amb t req cap) := by
  simp only [hSecurityAccess, isExtendedSession_congr session]
  split_ifs
  · exact .unchanged _
  · exact hRequestSeed_sameAnswer amb security
  · exact hSendKey_sameAnswer amb security
  · exact .unchanged _

/-- The payload of an identifier depends on the parts behind it. -/
theorem didPayload_same {did : UInt16} {e : DidEntry DidReadFn DidWriteFn}
    (found : didTableLookup ecuDids did = some e) (same : ∀ p ∈ didParts did, p.same s t) :
    didPayload s e = didPayload t e := by
  cases static : e.staticData with
  | some data => simp only [didPayload, static]
  | none =>
      cases reader : e.read with
      | none => simp only [didPayload, static, reader]
      | some fn =>
          have behind : fn.part.same s t := by
            apply same
            simp [didParts, found, reader]
          have read : DidCallbacks.read fn s 256 = DidCallbacks.read fn t 256 := by
            cases fn with
            | ownerRead =>
                have owner : s.owner = t.owner := behind
                simp only [DidCallbacks.read, owner]
            | _ =>
                have engine : s.app = t.app := behind
                simp only [DidCallbacks.read, engine]
          simp only [didPayload, static, reader, read]

theorem hReadDid_sameAnswer (left : s.dids = ecuDids) (right : t.dids = ecuDids)
    (same : ∀ p ∈ didParts (join16 (byteAt req 1) (byteAt req 2)), p.same s t) :
    SameAnswer s t (hReadDid amb s req cap) (hReadDid amb t req cap) := by
  simp only [hReadDid, left, right]
  split_ifs
  · exact .unchanged _
  · cases found : didTableLookup ecuDids (join16 (byteAt req 1) (byteAt req 2)) with
    | none => exact .unchanged _
    | some e =>
        simp only [didPayload_same found same]
        cases didPayload t e with
        | bytes payload =>
            simp only
            split_ifs <;> exact .unchanged _
        | _ => exact .unchanged _

/-- The owner callback accepts by the bytes it is given, and stores nothing else. -/
theorem write_sameAnswer (fn : DidWriteFn) (input : List UInt8) :
    (DidCallbacks.write fn s input).1 = (DidCallbacks.write fn t input).1 ∧
      ∀ p : StatePart, p.same s t →
        p.same (DidCallbacks.write fn s input).2 (DidCallbacks.write fn t input).2 := by
  cases fn
  by_cases bad : input.length = 0 ∨ input.length > ownerNameCap
  · simp only [DidCallbacks.write, ownerWrite_refused _ bad]
    exact ⟨trivial, fun _ same => same⟩
  · obtain ⟨nonempty, fits⟩ := not_or.mp bad
    simp only [DidCallbacks.write, ownerWrite_stored _ nonempty (Nat.not_lt.mp fits)]
    refine ⟨trivial, fun p same => ?_⟩
    cases p with
    | owner => exact congrArg (fun o => o.store input (Nat.not_lt.mp fits)) same
    | _ => exact same

theorem hWriteDid_sameAnswer (left : s.dids = ecuDids) (right : t.dids = ecuDids)
    (session : s.session = t.session) (security : s.security = t.security) :
    SameAnswer s t (hWriteDid amb s req cap) (hWriteDid amb t req cap) := by
  simp only [hWriteDid, left, right, isExtendedSession_congr session, security]
  split_ifs
  · exact .unchanged _
  · cases didTableLookup ecuDids (join16 (byteAt req 1) (byteAt req 2)) with
    | none => exact .unchanged _
    | some e =>
        cases writer : e.write with
        | none => simpa only [writer] using .unchanged _
        | some fn =>
            obtain ⟨code, carry⟩ := write_sameAnswer (s := s) (t := t) fn (req.drop 3)
            simp only [writer, code]
            split_ifs
            · exact .unchanged _
            · exact .unchanged _
            · exact ⟨rfl, carry⟩
            · exact ⟨rfl, carry⟩

/-- States that agree on what a request reads come to the same answer. -/
theorem udsProcessRequest_sameAnswer (left : s.dids = ecuDids) (right : t.dids = ecuDids)
    (reads : ∀ p ∈ requestReads req, p.same s t) :
    SameAnswer s t (udsProcessRequest amb s req cap) (udsProcessRequest amb t req cap) := by
  by_cases idle : req.length = 0 ∨ cap < 3
  · simp only [udsProcessRequest, if_pos idle]
    exact .unchanged _
  simp only [udsProcessRequest, if_neg idle]
  generalize same : List.find? _ _ = found
  have row : DispatchRow (byteAt req 0) found := same ▸ dispatch_row _
  cases row with
  | sessionControl code => exact hSessionControl_sameAnswer amb cap
  | ecuReset code => exact hEcuReset_sameAnswer amb cap
  | clearDtc code => exact hClearDtc_sameAnswer amb cap
  | readDtc code =>
      have codes : StatePart.codes.same s t := reads _ (by simp [requestReads, code])
      exact hReadDtc_sameAnswer amb cap codes
  | readDid code =>
      refine hReadDid_sameAnswer amb cap left right fun p member => reads p ?_
      simpa [requestReads, code] using member
  | securityAccess code =>
      have session : StatePart.session.same s t := reads _ (by simp [requestReads, code])
      have security : StatePart.security.same s t := reads _ (by simp [requestReads, code])
      exact hSecurityAccess_sameAnswer amb cap (Prod.mk.inj session).1 security
  | writeDid code =>
      have session : StatePart.session.same s t := reads _ (by simp [requestReads, code])
      have security : StatePart.security.same s t := reads _ (by simp [requestReads, code])
      exact hWriteDid_sameAnswer amb cap left right (Prod.mk.inj session).1 security
  | testerPresent code => exact hTesterPresent_sameAnswer amb cap
  | unsupported => exact .unchanged _

end Handlers

/-! ## Steps -/

section Frames

variable {s s' : EcuState} {p : StatePart}

theorem same_secured (s : EcuState) (t : SecurityState) (other : .security ≠ p) :
    p.same { s with security := t } s := by
  cases p with
  | security => exact absurd rfl other
  | _ => rfl

theorem same_session (s : EcuState) (session : UInt8) (now : UInt64) (other : .session ≠ p) :
    p.same { s with session := session, lastTesterPresentMs := now } s := by
  cases p with
  | session => exact absurd rfl other
  | _ => rfl

/-- What a service may not write, it leaves alone. -/
theorem Effect.frame {amb : Ambient} {req : List UInt8} {reply : Reply}
    (effect : Effect amb s req s' reply) (unwritten : p ∉ serviceWrites (byteAt req 0)) :
    p.same s' s := by
  -- A part in the list of the service is another one.
  have other : ∀ (sid : UInt8) {q : StatePart}, byteAt req 0 = sid → q ∈ serviceWrites sid →
      q ≠ p := by
    rintro sid q rfl written rfl
    exact unwritten written
  cases effect with
  | sessionControl raw request =>
      subst request
      exact same_session s _ _ (other 0x10 rfl (by decide))
  | ecuReset raw request =>
      subst request
      have session : StatePart.session ≠ p := other 0x11 rfl (by decide)
      have security : StatePart.security ≠ p := other 0x11 rfl (by decide)
      exact p.equivalence.trans (same_secured _ _ security) (same_session s _ _ session)
  | clearDtc request =>
      subst request
      have codes : StatePart.codes ≠ p := other 0x14 rfl (by decide)
      cases p with
      | codes => exact absurd rfl codes
      | _ => rfl
  | requestSeed raw request =>
      subst request
      exact same_secured s _ (other 0x27 rfl (by decide))
  | keyAccepted raw k₀ k₁ k₂ k₃ request =>
      subst request
      exact same_secured s _ (other 0x27 rfl (by decide))
  | keyRejected raw k₀ k₁ k₂ k₃ request =>
      subst request
      exact same_secured s _ (other 0x27 rfl (by decide))
  | writeDid data request =>
      subst request
      have owner : StatePart.owner ≠ p := other 0x2E rfl (by decide)
      cases p with
      | owner => exact absurd rfl owner
      | _ => rfl
  | testerPresent raw request =>
      subst request
      exact same_session s _ _ (other 0x3E rfl (by decide))
  | _ => exact p.equivalence.refl s

/-- What an input may not write, it leaves alone. -/
theorem ServerEffect.frame {i : ServerInput} {reply : Option Reply}
    (effect : ServerEffect s i s' reply) (unwritten : p ∉ i.writes) : p.same s' s := by
  cases effect with
  | request req op effect =>
      apply effect.frame
      simpa only [ServerInput.writes, op] using unwritten
  | s3Timeout op =>
      simp only [ServerInput.writes, op, List.mem_cons, List.not_mem_nil, or_false,
        not_or] at unwritten
      exact p.equivalence.trans (same_secured _ _ (Ne.symm unwritten.2))
        (same_session s _ _ (Ne.symm unwritten.1))
  | engineTick op =>
      simp only [ServerInput.writes, op, List.mem_singleton] at unwritten
      cases p with
      | engine => exact absurd rfl unwritten
      | _ => rfl
  | _ => exact p.equivalence.refl s

end Frames

/-- The S3 loop decides by the session alone. -/
theorem s3Iteration_carry (amb : Ambient) {s t : EcuState} (session : StatePart.session.same s t)
    {p : StatePart} (same : p.same s t) : p.same (s3Iteration amb s) (s3Iteration amb t) := by
  obtain ⟨kind, refreshed⟩ := Prod.mk.inj session
  simp only [s3Iteration, kind, refreshed]
  split_ifs
  · cases p with
    | session => rfl
    | security => exact congrArg SecurityState.relock same
    | _ => exact same
  · exact same
  · exact same

/-- The footprint of every input is what its tables say. -/
theorem serverFootprint :
    Footprint serverStep (fun s => s.dids = ecuDids) StatePart.same ServerInput.writes
      ServerInput.reads where
  equivalence := StatePart.equivalence
  preserved := fun s i registered => (serverStep_effect registered i).dids.trans registered
  frame := fun s i p registered unwritten => (serverStep_effect registered i).frame unwritten
  output := by
    intro s t i left right reads
    cases op : i.op with
    | request req =>
        simp only [ServerInput.reads, op] at reads
        have answers := udsProcessRequest_sameAnswer i.amb udsMaxMsgLen left right reads
        simp only [serverStep, op, answers.reply]
    | _ => simp only [serverStep, op]
  carry := by
    intro s t i p left right reads same
    cases op : i.op with
    | request req =>
        simp only [ServerInput.reads, op] at reads
        have answers := udsProcessRequest_sameAnswer i.amb udsMaxMsgLen left right reads
        simpa only [serverStep, op] using answers.carry p same
    | s3Iteration =>
        simp only [ServerInput.reads, op] at reads
        simpa only [serverStep, op] using
          s3Iteration_carry i.amb (reads _ List.mem_cons_self) same
    | engineTick =>
        simp only [serverStep, op]
        cases p with
        | engine => exact congrArg (appEngineTick i.amb.wave) same
        | _ => exact same

/-! ## Influence -/

/-- The parts that have a say in what becomes of a part. -/
def StatePart.sources : StatePart → List StatePart
  | .session => [.session]
  | .security => [.session, .security]
  | .owner => [.session, .security, .owner]
  | .codes => [.codes]
  | .engine => [.engine]

/-- The parts that have a say in how a request is answered. -/
def decisive (req : List UInt8) (p : StatePart) : Bool :=
  (requestReads req).any fun q => q.sources.contains p

/-- An input that has a say in how a request is answered: it writes a decisive part. -/
def Influences (req : List UInt8) (i : ServerInput) : Bool :=
  writesKept ServerInput.writes (decisive req) i

theorem sources_trans {p q r : StatePart} (first : r ∈ q.sources) (second : q ∈ p.sources) :
    r ∈ p.sources := by
  cases p <;> cases q <;> grind [StatePart.sources]

/-- What a service reads has a say in what it writes. -/
theorem requestReads_subset_sources {req : List UInt8} {p q : StatePart}
    (written : p ∈ serviceWrites (byteAt req 0)) (read : q ∈ requestReads req) :
    q ∈ p.sources := by
  have gated : byteAt req 0 = 0x27 ∨ byteAt req 0 = 0x2E := by
    by_contra ungated
    have nothing : requestReads req = [] ∨ serviceWrites (byteAt req 0) = [] := by
      by_cases codes : byteAt req 0 = 0x19
      · exact .inr (by rw [codes]; rfl)
      by_cases reading : byteAt req 0 = 0x22
      · exact .inr (by rw [reading]; rfl)
      · exact .inl (by simp only [requestReads, if_neg codes, if_neg reading, if_neg ungated])
    rcases nothing with nothing | nothing
    · exact List.not_mem_nil (nothing ▸ read)
    · exact List.not_mem_nil (nothing ▸ written)
  have gates : q = .session ∨ q = .security := by
    rcases gated with code | code
    · simpa [requestReads, code] using read
    · simpa [requestReads, code] using read
  rcases gated with code | code
  · obtain rfl : p = .security := by simpa [serviceWrites, code] using written
    rcases gates with rfl | rfl <;> decide
  · obtain rfl : p = .owner := by simpa [serviceWrites, code] using written
    rcases gates with rfl | rfl <;> decide

/-- What an input reads has a say in what it writes. -/
theorem reads_subset_sources {i : ServerInput} {p q : StatePart} (written : p ∈ i.writes)
    (read : q ∈ i.reads) : q ∈ p.sources := by
  cases op : i.op with
  | request req =>
      simp only [ServerInput.writes, ServerInput.reads, op] at written read
      exact requestReads_subset_sources written read
  | s3Iteration =>
      simp only [ServerInput.writes, ServerInput.reads, op, List.mem_cons, List.not_mem_nil,
        or_false] at written read
      subst read
      rcases written with rfl | rfl <;> decide
  | engineTick =>
      simp only [ServerInput.writes, ServerInput.reads, op, List.mem_singleton] at written read
      subst written read
      decide

theorem decisive_closed (req : List UInt8) :
    ClosedUnder ServerInput.writes ServerInput.reads (decisive req) := by
  intro i needed q read
  obtain ⟨p, written, kept⟩ := List.any_eq_true.mp needed
  obtain ⟨r, asked, source⟩ := List.any_eq_true.mp kept
  refine List.any_eq_true.mpr ⟨r, asked, ?_⟩
  rw [List.contains_iff_mem] at source ⊢
  exact sources_trans (reads_subset_sources written read) source

/-- **Only what influences an answer matters to it.** Two runs may differ in everything that has
no say in how a request is answered: dropped, added or moved inputs at any place. The request
gets the same answer behind both. -/
theorem answer_depends_on_influences (boot : UInt64) {past past' : List ServerInput}
    {req : List UInt8} (same : past.filter (Influences req) = past'.filter (Influences req))
    (amb : Ambient) :
    (udsProcessRequest amb (serverRun boot past) req udsMaxMsgLen).2 =
      (udsProcessRequest amb (serverRun boot past') req udsMaxMsgLen).2 := by
  have reading : ∀ q ∈ ServerInput.reads ⟨.request req, amb⟩, decisive req q = true := by
    intro q read
    refine List.any_eq_true.mpr ⟨q, read, ?_⟩
    rw [List.contains_iff_mem]
    cases q <;> decide
  have output := serverFootprint.output_of_filter_eq (decisive_closed req)
    (rfl : (vecuInit boot).dids = ecuDids) same reading
  exact Option.some.inj output

/-- A seed request does not notice the engine, or that the trouble codes were cleared. -/
theorem answer_depends_on_influences_seed :
    (udsProcessRequest (.still 9)
      (serverRun 0 [.requestAt 1 [0x10, 0x03], ⟨.engineTick, .still 2⟩,
        .requestAt 3 [0x14, 0xFF, 0xFF, 0xFF]]) [0x27, 0x01] udsMaxMsgLen).2 =
    (udsProcessRequest (.still 9) (serverRun 0 [.requestAt 1 [0x10, 0x03]]) [0x27, 0x01]
      udsMaxMsgLen).2 :=
  answer_depends_on_influences 0 rfl (.still 9)

end VecuUds
