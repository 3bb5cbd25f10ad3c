import VecuUds.Server.Lockout
import VecuUds.Threads.S3

/-!
# Critical sections of the security state

The security state is written from three places: under its mutex by `security.c`, by
`h_ecu_reset`, and by the S3 thread. A request takes the mutexes of the ECU one after
the other: SecurityAccess passes the session gate before it calls the security module,
and ECUReset stores the session before it clears the security state. The S3 thread may
act between any two of these sections.

A run of this module is any interleaving of such sections. The S3 actions are enabled at
every time, which covers whatever the S3 thread decides.
-/

namespace VecuUds

open Foundation

/-- The request whose security section the dispatcher enters next, if it is inside one. -/
inductive DispatcherPc where
  | idle
  | securityAccess (req : List UInt8)
  | ecuReset (req : List UInt8)
  deriving DecidableEq, Repr

structure SectionSystem where
  ecu : EcuState
  dispatcher : DispatcherPc

/-- The dispatcher enters its next section, on the given request if it is idle; the S3
thread reverts the session or relocks security; the engine ticks. -/
inductive SectionAction where
  | dispatch (req : List UInt8)
  | s3Revert
  | s3Relock
  | engineTick
  deriving DecidableEq, Repr

structure SectionInput where
  action : SectionAction
  amb : Ambient

/-- A SecurityAccess request that passes the session gate. -/
def PassesGate (s : EcuState) (req : List UInt8) : Prop :=
  byteAt req 0 = 0x27 ∧ 2 ≤ req.length ∧ isExtendedSession s = true

/-- An ECUReset request that will be answered positively. -/
def Resets (req : List UInt8) : Prop :=
  byteAt req 0 = 0x11 ∧ req.length = 2 ∧
    (subFunction (byteAt req 1) = 0x01 ∨ subFunction (byteAt req 1) = 0x02 ∨
      subFunction (byteAt req 1) = 0x03)

instance (s : EcuState) (req : List UInt8) : Decidable (PassesGate s req) :=
  inferInstanceAs (Decidable (_ ∧ _ ∧ _))

instance (req : List UInt8) : Decidable (Resets req) := inferInstanceAs (Decidable (_ ∧ _ ∧ _))

/-- The part of `h_security_access` behind the session gate. -/
def hSecuritySection (amb : Ambient) (s : EcuState) (req : List UInt8) : EcuState × Reply :=
  if subFunction (byteAt req 1) &&& 0x01 = 0x01 then hRequestSeed amb s req
  else hSendKey amb s req

/-- One section of the dispatcher, with the request it answers and the reply. Requests
that leave the security state alone are one section. -/
def dispatcherSection (amb : Ambient) (s : SectionSystem) (req : List UInt8) :
    SectionSystem × Option (List UInt8 × Reply) :=
  match s.dispatcher with
  | .idle =>
      if PassesGate s.ecu req then (⟨s.ecu, .securityAccess req⟩, none)
      else if Resets req then
        (⟨vecuSetSession amb.now s.ecu udsSessionDefault, .ecuReset req⟩, none)
      else
        let r := udsProcessRequest amb s.ecu req udsMaxMsgLen
        (⟨r.1, .idle⟩, some (req, r.2))
  | .securityAccess pending =>
      let r := hSecuritySection amb s.ecu pending
      (⟨r.1, .idle⟩, some (pending, r.2))
  | .ecuReset pending =>
      (⟨{ s.ecu with security := s.ecu.security.reset }, .idle⟩,
        some (pending, .suppressible (byteAt pending 1)
          [udsPosResp (byteAt pending 0), subFunction (byteAt pending 1)] 2))

def sectionStep (s : SectionSystem) (i : SectionInput) :
    SectionSystem × Option (List UInt8 × Reply) :=
  match i.action with
  | .dispatch req => dispatcherSection i.amb s req
  | .s3Revert => ({ s with ecu := s3Revert i.amb.now s.ecu }, none)
  | .s3Relock => ({ s with ecu := s3Relock s.ecu }, none)
  | .engineTick => ({ s with ecu := (serverStep s.ecu ⟨.engineTick, i.amb⟩).1 }, none)

abbrev SectionVisit := Visit SectionSystem SectionInput (Option (List UInt8 × Reply))

def sectionRun (boot : UInt64) (inputs : List SectionInput) : SectionSystem :=
  run sectionStep ⟨vecuInit boot, .idle⟩ inputs

def sectionTrace (boot : UInt64) (inputs : List SectionInput) : List SectionVisit :=
  trace sectionStep ⟨vecuInit boot, .idle⟩ inputs

/-! ## Without interruption -/

/-- The sections of a request, one after the other, are `uds_process_request`. -/
theorem udsProcessRequest_of_sections (amb : Ambient) (s : EcuState) (req : List UInt8) :
    let whole := udsProcessRequest amb s req udsMaxMsgLen
    let first := sectionStep ⟨s, .idle⟩ ⟨.dispatch req, amb⟩
    first = (⟨whole.1, .idle⟩, some (req, whole.2)) ∨
      (first.2 = none ∧ ∀ other, sectionStep first.1 ⟨.dispatch other, amb⟩ =
        (⟨whole.1, .idle⟩, some (req, whole.2))) := by
  intro whole first
  by_cases passes : PassesGate s req
  · have entered : first = (⟨s, .securityAccess req⟩, none) := by
      simp only [first, sectionStep, dispatcherSection, if_pos passes]
    obtain ⟨sid, long, gate⟩ := passes
    have behind : whole = hSecuritySection amb s req := by
      simp only [whole, udsProcessRequest_securityAccess amb s sid, hSecurityAccess,
        Nat.not_lt.mpr long, gate, hSecuritySection, not_true_eq_false, if_false]
    refine .inr ⟨by rw [entered], ?_⟩
    intro other
    rw [entered, behind]
    rfl
  · by_cases resets : Resets req
    · have entered : first =
          (⟨vecuSetSession amb.now s udsSessionDefault, .ecuReset req⟩, none) := by
        simp only [first, sectionStep, dispatcherSection, if_neg passes, if_pos resets]
      obtain ⟨sid, pair, known⟩ := resets
      have supported : ¬ (subFunction (byteAt req 1) ≠ 0x01 ∧ subFunction (byteAt req 1) ≠ 0x02 ∧
          subFunction (byteAt req 1) ≠ 0x03) := by
        rintro ⟨one, two, three⟩
        exact known.elim one (fun rest => rest.elim two three)
      have handled : whole = hEcuReset amb s req udsMaxMsgLen :=
        udsProcessRequest_row (u := .ecuReset) amb s three_le_udsMaxMsgLen sid rfl
      refine .inr ⟨by rw [entered], ?_⟩
      intro other
      rw [entered, handled]
      simp only [hEcuReset, pair, ne_eq, not_true_eq_false, if_false, if_neg supported]
      rfl
    · left
      simp only [first, sectionStep, dispatcherSection, if_neg passes, if_neg resets, whole]

/-! ## The invariant -/

section Invariant

variable {s : EcuState} {amb : Ambient} {req : List UInt8}

/-- Behind the gate the security state stays valid, whatever the session is by now. -/
theorem EcuState.Sound.securitySection (sound : s.Sound) (clear : ClearOfWrap amb.later) :
    (hSecuritySection amb s req).1.Sound := by
  have seed := sound.2.requestSeed amb.now amb.entropy (subFunction (byteAt req 1))
  have key := sound.2.sendKey amb.now clear (subFunction (byteAt req 1) - 1)
    (join32 (byteAt req 2) (byteAt req 3) (byteAt req 4) (byteAt req 5))
  simp only [hSecuritySection]
  split_ifs with odd
  · simp only [hRequestSeed]
    split_ifs
    · exact sound
    · cases (securityRequestSeed amb.now amb.entropy s.security (subFunction (byteAt req 1))).2 <;>
        exact ⟨sound.1, seed⟩
  · simp only [hSendKey]
    split_ifs
    · exact sound
    · cases (securitySendKey amb.now amb.later s.security (subFunction (byteAt req 1) - 1)
          (join32 (byteAt req 2) (byteAt req 3) (byteAt req 4) (byteAt req 5))).2 <;>
        exact ⟨sound.1, key⟩

theorem EcuState.Sound.sectionStep {s : SectionSystem} (sound : s.ecu.Sound) {i : SectionInput}
    (clear : ClearOfWrap i.amb.later) : (sectionStep s i).1.ecu.Sound := by
  obtain ⟨action, amb⟩ := i
  cases action with
  | dispatch req =>
      simp only [VecuUds.sectionStep, dispatcherSection]
      cases s.dispatcher with
      | idle =>
          simp only
          split_ifs
          · exact sound
          · exact sound
          · exact sound.step (i := ⟨.request req, amb⟩) clear
      | securityAccess pending => exact sound.securitySection clear
      | ecuReset pending => exact ⟨sound.1, .reset _⟩
  | s3Revert => exact sound
  | s3Relock => exact ⟨sound.1, sound.2.relock⟩
  | engineTick => exact sound

theorem negative_not_delayed {nrc : UdsNrc} (other : nrc ≠ .requiredTimeDelayNotExpired) :
    (Reply.negative 0x27 nrc).resp ≠ [0x7F, 0x27, 0x37] := by
  cases nrc with
  | requiredTimeDelayNotExpired => exact absurd rfl other
  | _ => decide

/-- A key is never refused for a lock-out that is on. -/
theorem EcuState.Sound.sendKey_not_delayed (sound : s.Sound) (sid : byteAt req 0 = 0x27) :
    (hSendKey amb s req).2.resp ≠ [0x7F, 0x27, 0x37] := by
  have undelayed := sound.2.sendKey_not_delayed amb.now amb.later (subFunction (byteAt req 1) - 1)
    (join32 (byteAt req 2) (byteAt req 3) (byteAt req 4) (byteAt req 5))
  simp only [hSendKey, sid]
  split_ifs
  · exact negative_not_delayed (by decide)
  · cases judged : (securitySendKey amb.now amb.later s.security (subFunction (byteAt req 1) - 1)
        (join32 (byteAt req 2) (byteAt req 3) (byteAt req 4) (byteAt req 5))).2 with
    | error nrc =>
        apply negative_not_delayed
        rintro rfl
        exact undelayed judged
    | ok value => simp [Reply.suppressible]

/-- No section answers a sendKey request with `requiredTimeDelayNotExpired`. -/
theorem EcuState.Sound.section_not_delayed {s : SectionSystem} (sound : s.ecu.Sound)
    {i : SectionInput} {reply : Reply} (answered : (VecuUds.sectionStep s i).2 = some (req, reply))
    (sid : byteAt req 0 = 0x27) (even : subFunction (byteAt req 1) &&& 0x01 ≠ 0x01) :
    reply.resp ≠ [0x7F, 0x27, 0x37] := by
  obtain ⟨action, amb⟩ := i
  cases action with
  | dispatch asked =>
      simp only [VecuUds.sectionStep, dispatcherSection] at answered
      cases pc : s.dispatcher with
      | idle =>
          simp only [pc] at answered
          split_ifs at answered with passes resets
          -- Refused in front of the gate: too short, or not in this session.
          obtain ⟨rfl, rfl⟩ := Prod.mk.inj (Option.some.inj answered)
          simp only [udsProcessRequest_securityAccess amb s.ecu sid, hSecurityAccess, sid]
          split_ifs with short gate
          · exact negative_not_delayed (by decide)
          · exact absurd ⟨sid, Nat.not_lt.mp short, gate⟩ passes
          · exact negative_not_delayed (by decide)
      | securityAccess pending =>
          simp only [pc] at answered
          obtain ⟨rfl, rfl⟩ := Prod.mk.inj (Option.some.inj answered)
          simp only [hSecuritySection, if_neg even]
          exact sound.sendKey_not_delayed sid
      | ecuReset pending =>
          simp only [pc] at answered
          obtain ⟨rfl, rfl⟩ := Prod.mk.inj (Option.some.inj answered)
          simp [Reply.suppressible]
  | s3Revert => cases answered
  | s3Relock => cases answered
  | engineTick => cases answered

end Invariant

theorem sectionRun_sound (boot : UInt64) (inputs : List SectionInput)
    (clear : ∀ i ∈ inputs, ClearOfWrap i.amb.later) : (sectionRun boot inputs).ecu.Sound := by
  induction inputs using List.reverseRecOn with
  | nil => exact ⟨rfl, .init⟩
  | append_singleton past i ih =>
      rw [sectionRun, run_snoc]
      have sound := ih fun j member => clear j (by simp [member])
      exact sound.sectionStep (clear i (by simp))

/-- **The representation invariant of the security state.** It holds after every
interleaving of requests, resets and S3 actions, down to the critical sections, and no
sendKey request is ever answered with `requiredTimeDelayNotExpired`. -/
theorem security_state_valid (boot : UInt64) (inputs : List SectionInput)
    (clear : ∀ i ∈ inputs, ClearOfWrap i.amb.later) :
    (sectionRun boot inputs).ecu.security.Valid ∧
      ∀ v ∈ sectionTrace boot inputs, ∀ req reply, v.output = some (req, reply) →
        byteAt req 0 = 0x27 → subFunction (byteAt req 1) &&& 0x01 ≠ 0x01 →
          reply.resp ≠ [0x7F, 0x27, 0x37] := by
  refine ⟨(sectionRun_sound boot inputs clear).2, ?_⟩
  intro v member req reply answered sid even
  obtain ⟨past, i, future, rfl, rfl⟩ := (mem_trace_iff sectionStep).mp member
  have sound : (sectionRun boot past).ecu.Sound :=
    sectionRun_sound boot past fun j earlier => clear j (by simp [earlier])
  exact sound.section_not_delayed answered sid even

/-- A seed is handed out, and the S3 thread relocks between the session gate of the key
and its judgement. -/
def relockBehindGate : List SectionInput :=
  [⟨.dispatch [0x10, 0x03], .still 0⟩, ⟨.dispatch [0x27, 0x01], .still 1⟩,
    ⟨.dispatch [], .still 1⟩, ⟨.dispatch [0x27, 0x02, 0xDE, 0xAD, 0xBE, 0xEE], .still 2⟩,
    ⟨.s3Relock, .still 3⟩, ⟨.dispatch [], .still 3⟩]

theorem security_state_valid_relock_behind_gate :
    (sectionRun 0 relockBehindGate).ecu.security.Valid ∧
      (sectionTrace 0 relockBehindGate).map (fun v => v.output.map (fun r => r.2.resp)) =
        [some [0x50, 0x03, 0x00, 0x32, 0x01, 0xF4], none,
          some [0x67, 0x01, 0x00, 0x00, 0x00, 0x01], none, none, some [0x7F, 0x27, 0x24]] :=
  ⟨(security_state_valid 0 relockBehindGate (by decide)).1, by decide +kernel⟩

end VecuUds
