import VecuUds.Isotp.Call

/-!
# What an answer does to a receiver

A call of `isotp_recv` branches on the answers it gets. `AnswerEffect` lists these branches
with the conditions under which the code takes them: where the call goes, with which
variables, and which `memcpy` into the caller's buffer it makes on the way. What later modules
say about a whole call is derived from this list, one case for each branch.
-/

namespace VecuUds

open Foundation

/-! ## Frames that are accepted -/

/-- The receiver accepts the frame as a first frame: its length is admissible. -/
def Opens (outCap : Nat) (f : CanFrame) : Prop :=
  f.pci = pciFf ∧ 8 ≤ f.ffLength ∧ f.ffLength ≤ isotpMaxPayload ∧ f.ffLength ≤ outCap

instance (outCap : Nat) (f : CanFrame) : Decidable (Opens outCap f) :=
  inferInstanceAs (Decidable (_ ∧ _))

/-- An accepted single frame: its payload fits the caller's buffer. -/
def Delivers (outCap : Nat) (f : CanFrame) : Prop :=
  f.pci = pciSf ∧ 1 ≤ f.nibble.toNat ∧ f.nibble.toNat ≤ 7 ∧ f.nibble.toNat ≤ outCap

instance (outCap : Nat) (f : CanFrame) : Decidable (Delivers outCap f) :=
  inferInstanceAs (Decidable (_ ∧ _))

/-- Another kind of frame is no single frame. -/
theorem not_delivers {outCap : Nat} {f : CanFrame} {kind : UInt8} (pci : f.pci = kind)
    (other : kind ≠ pciSf) : ¬ Delivers outCap f := by
  rintro ⟨single, -⟩
  exact other (pci.symm.trans single)

theorem Opens.not_delivers {outCap : Nat} {f : CanFrame} (opens : Opens outCap f) :
    ¬ Delivers outCap f :=
  VecuUds.not_delivers opens.1 (by decide)

namespace RecvVars

/-- The variables with the payload of an accepted single frame. -/
def delivered (v : RecvVars) (f : CanFrame) : RecvVars :=
  { v with
    out := overwrite v.out 0 ((f.data.drop 1).take f.nibble.toNat)
    outLen := f.nibble.toNat }

/-- The variables after an accepted first frame, but for the deadline. -/
def opened (v : RecvVars) (f : CanFrame) : RecvVars :=
  { v with
    out := overwrite v.out 0 ((f.data.drop 2).take 6)
    totalLen := f.ffLength
    got := 6
    nextSn := 1
    receiving := true }

/-- How many bytes the next consecutive frame is expected to carry. -/
def chunk (v : RecvVars) : Nat := min 7 (v.totalLen - v.got)

/-- The variables after an accepted consecutive frame, but for the deadline. -/
def extended (v : RecvVars) (f : CanFrame) : RecvVars :=
  { v with
    out := overwrite v.out v.got ((f.data.drop 1).take v.chunk)
    got := v.got + v.chunk
    nextSn := (v.nextSn + 1) &&& 0x0F }

/-- The variables with the next deadline, counted from a clock reading. -/
def armedAt (v : RecvVars) (t : UInt64) : RecvVars := { v with deadline := t + isotpNCrMs }

end RecvVars

/-! ## The copies -/

/-- A `memcpy` into the caller's buffer: the offset in it, the bytes from the source pointer
to the end of the frame, and the size. -/
structure Memcpy where
  offset : Nat
  source : List UInt8
  size : Nat

/-- The copies of an idle receiver: a single frame's bytes, or the first six of a message. -/
def idleCopy (outCap : Nat) (f : CanFrame) : Option Memcpy :=
  if f.pci = pciSf then
    let len := f.nibble.toNat
    if len = 0 ∨ len > 7 ∨ len > outCap then none else some ⟨0, f.data.drop 1, len⟩
  else if f.pci = pciFf then
    if f.ffLength < 8 ∨ f.ffLength > isotpMaxPayload ∨ f.ffLength > outCap then none
    else some ⟨0, f.data.drop 2, 6⟩
  else none

/-- The copy of an open reassembly: the bytes of an expected consecutive frame. -/
def receivingCopy (v : RecvVars) (f : CanFrame) : Option Memcpy :=
  if f.pci ≠ pciCf then none
  else if f.nibble ≠ v.nextSn then none
  else
    let remaining := v.totalLen - v.got
    let chunk := if remaining > 7 then 7 else remaining
    some ⟨v.got, f.data.drop 1, chunk⟩

/-- The copy that follows an answer, if there is one. -/
def recvCopy (addr : IsotpAddr) (outCap : Nat) : RecvState → IoAnswer → Option Memcpy
  | .loop v, .received f =>
      if f.maskedId ≠ addr.rxId then none
      else if v.receiving then none
      else idleCopy outCap f
  | .check v f, .time t => if t > v.deadline then none else receivingCopy v f
  | _, _ => none

/-! ## The branches -/

/-- The answer is one to this call. -/
def IoCall.takes : IoCall → IoAnswer → Bool
  | .recv, .received _ => true
  | .recv, .interrupted => true
  | .recv, .failed => true
  | .send _, .sent _ => true
  | .clock, .time _ => true
  | _, _ => false

theorem ioEvent_of_other {call : IoCall} {a : IoAnswer} (other : call.takes a = false) :
    ioEvent call a = none := by
  cases call <;> cases a <;> first | rfl | cases other

/-- Every branch of `isotp_recv`: the place and the answer, the copy, and the next place. -/
inductive AnswerEffect (addr : IsotpAddr) (outCap : Nat) :
    RecvState → IoAnswer → Option Memcpy → RecvState → Prop where
  | unasked {s : RecvState} {a : IoAnswer} (other : (recvCall addr s).takes a = false) :
      AnswerEffect addr outCap s a none s
  | interrupted {v : RecvVars} : AnswerEffect addr outCap (.loop v) .interrupted none (.done v 1)
  | failed {v : RecvVars} : AnswerEffect addr outCap (.loop v) .failed none (.done v (-1))
  | foreign {v : RecvVars} {f : CanFrame} (other : f.maskedId ≠ addr.rxId) :
      AnswerEffect addr outCap (.loop v) (.received f) none (.loop v)
  | taken {v : RecvVars} {f : CanFrame} (own : f.maskedId = addr.rxId)
      (receiving : v.receiving = true) :
      AnswerEffect addr outCap (.loop v) (.received f) none (.check v f)
  | ignored {v : RecvVars} {f : CanFrame} (own : f.maskedId = addr.rxId)
      (closed : v.receiving = false) (second : f.pci ≠ pciFf) (bad : ¬ Delivers outCap f) :
      AnswerEffect addr outCap (.loop v) (.received f) none (.loop v)
  | badLength {v : RecvVars} {f : CanFrame} (own : f.maskedId = addr.rxId)
      (closed : v.receiving = false) (first : f.pci = pciFf) (bad : ¬ Opens outCap f) :
      AnswerEffect addr outCap (.loop v) (.received f) none
        (.loop { v with totalLen := f.ffLength })
  | single {v : RecvVars} {f : CanFrame} (own : f.maskedId = addr.rxId)
      (closed : v.receiving = false) (delivers : Delivers outCap f) :
      AnswerEffect addr outCap (.loop v) (.received f) (some ⟨0, f.data.drop 1, f.nibble.toNat⟩)
        (.done (v.delivered f) 0)
  | opened {v : RecvVars} {f : CanFrame} (own : f.maskedId = addr.rxId)
      (closed : v.receiving = false) (opens : Opens outCap f) :
      AnswerEffect addr outCap (.loop v) (.received f) (some ⟨0, f.data.drop 2, 6⟩)
        (.sendFc (v.opened f))
  | unsent {v : RecvVars} {rc : Int} (bad : rc ≠ 0) :
      AnswerEffect addr outCap (.sendFc v) (.sent rc) none (.done v (-1))
  | sent {v : RecvVars} : AnswerEffect addr outCap (.sendFc v) (.sent 0) none (.armFf v)
  | armed {v : RecvVars} {t : UInt64} :
      AnswerEffect addr outCap (.armFf v) (.time t) none
        (.loop { v with deadline := t + isotpNCrMs })
  | late {v : RecvVars} {f : CanFrame} {t : UInt64} (late : v.deadline < t) :
      AnswerEffect addr outCap (.check v f) (.time t) none (.done v (-1))
  | aborted {v : RecvVars} {f : CanFrame} {t : UInt64} (timely : t ≤ v.deadline)
      (other : f.pci ≠ pciCf) :
      AnswerEffect addr outCap (.check v f) (.time t) none (.loop { v with receiving := false })
  | mismatch {v : RecvVars} {f : CanFrame} {t : UInt64} (timely : t ≤ v.deadline)
      (pci : f.pci = pciCf) (wrong : f.nibble ≠ v.nextSn) :
      AnswerEffect addr outCap (.check v f) (.time t) none (.done v (-1))
  | processed {v : RecvVars} {f : CanFrame} {t : UInt64} (timely : t ≤ v.deadline)
      (pci : f.pci = pciCf) (sn : f.nibble = v.nextSn) :
      AnswerEffect addr outCap (.check v f) (.time t) (some ⟨v.got, f.data.drop 1, v.chunk⟩)
        (.armCf (v.extended f))
  | continued {v : RecvVars} {t : UInt64} (more : v.got < v.totalLen) :
      AnswerEffect addr outCap (.armCf v) (.time t) none
        (.loop { v with deadline := t + isotpNCrMs })
  | completed {v : RecvVars} {t : UInt64} (whole : v.totalLen ≤ v.got) :
      AnswerEffect addr outCap (.armCf v) (.time t) none
        (.done { v with outLen := v.totalLen, deadline := t + isotpNCrMs } 0)

section Branches

variable {addr : IsotpAddr} {outCap : Nat} {v : RecvVars} {f : CanFrame}

theorem recvResume_idle (own : f.maskedId = addr.rxId) (closed : v.receiving = false) :
    recvResume addr outCap (.loop v) (.received f) = recvIdle outCap v f := by
  simp only [recvResume, own, closed, ne_eq, not_true_eq_false, Bool.false_eq_true, if_false]

theorem recvResume_receiving (own : f.maskedId = addr.rxId) (receiving : v.receiving = true) :
    recvResume addr outCap (.loop v) (.received f) = .check v f := by
  simp only [recvResume, own, receiving, ne_eq, not_true_eq_false, if_false, if_true]

theorem recvIdle_delivers (delivers : Delivers outCap f) :
    recvIdle outCap v f = .done (v.delivered f) 0 := by
  obtain ⟨pci, low, high, fits⟩ := delivers
  have good : ¬ (f.nibble.toNat = 0 ∨ f.nibble.toNat > 7 ∨ f.nibble.toNat > outCap) := by omega
  simp only [recvIdle, if_pos pci, if_neg good]
  rfl

theorem recvIdle_opens (opens : Opens outCap f) :
    recvIdle outCap v f = .sendFc (v.opened f) := by
  obtain ⟨pci, long, bounded, fits⟩ := opens
  have other : ¬ f.pci = pciSf := by rw [pci]; decide
  have good : ¬ (f.ffLength < 8 ∨ f.ffLength > isotpMaxPayload ∨ f.ffLength > outCap) := by omega
  simp only [recvIdle, if_neg other, if_pos pci, if_neg good]
  rfl

theorem recvIdle_badLength (pci : f.pci = pciFf) (bad : ¬ Opens outCap f) :
    recvIdle outCap v f = .loop { v with totalLen := f.ffLength } := by
  have other : ¬ f.pci = pciSf := by rw [pci]; decide
  have refused : f.ffLength < 8 ∨ f.ffLength > isotpMaxPayload ∨ f.ffLength > outCap := by
    by_contra good
    exact bad ⟨pci, by omega, by omega, by omega⟩
  simp only [recvIdle, if_neg other, if_pos pci, if_pos refused]

theorem recvIdle_ignored (second : f.pci ≠ pciFf) (bad : ¬ Delivers outCap f) :
    recvIdle outCap v f = .loop v := by
  by_cases pci : f.pci = pciSf
  · have refused : f.nibble.toNat = 0 ∨ f.nibble.toNat > 7 ∨ f.nibble.toNat > outCap := by
      by_contra good
      exact bad ⟨pci, by omega, by omega, by omega⟩
    simp only [recvIdle, if_pos pci, if_pos refused]
  · simp only [recvIdle, if_neg pci, if_neg second]

theorem recvReceiving_accepted (pci : f.pci = pciCf) (sn : f.nibble = v.nextSn) :
    recvReceiving v f = .armCf (v.extended f) := by
  have chunk : (if v.totalLen - v.got > 7 then 7 else v.totalLen - v.got) = v.chunk :=
    chunk_eq_min _
  simp only [recvReceiving, pci, sn, ne_eq, not_true_eq_false, if_false, chunk]
  rfl

theorem recvReceiving_mismatch (pci : f.pci = pciCf) (wrong : f.nibble ≠ v.nextSn) :
    recvReceiving v f = .done v (-1) := by
  simp only [recvReceiving, pci, ne_eq, not_true_eq_false, if_false, wrong, not_false_eq_true,
    if_true]

theorem idleCopy_delivers (delivers : Delivers outCap f) :
    idleCopy outCap f = some ⟨0, f.data.drop 1, f.nibble.toNat⟩ := by
  obtain ⟨pci, low, high, fits⟩ := delivers
  have good : ¬ (f.nibble.toNat = 0 ∨ f.nibble.toNat > 7 ∨ f.nibble.toNat > outCap) := by omega
  simp only [idleCopy, if_pos pci, if_neg good]

theorem idleCopy_opens (opens : Opens outCap f) :
    idleCopy outCap f = some ⟨0, f.data.drop 2, 6⟩ := by
  obtain ⟨pci, long, bounded, fits⟩ := opens
  have other : ¬ f.pci = pciSf := by rw [pci]; decide
  have good : ¬ (f.ffLength < 8 ∨ f.ffLength > isotpMaxPayload ∨ f.ffLength > outCap) := by omega
  simp only [idleCopy, if_neg other, if_pos pci, if_neg good]

theorem idleCopy_refused (closed : ¬ Opens outCap f) (bad : ¬ Delivers outCap f) :
    idleCopy outCap f = none := by
  simp only [idleCopy]
  split_ifs with pci refused first refused
  · rfl
  · exact absurd ⟨pci, by omega, by omega, by omega⟩ bad
  · rfl
  · exact absurd ⟨first, by omega, by omega, by omega⟩ closed
  · rfl

theorem receivingCopy_accepted (pci : f.pci = pciCf) (sn : f.nibble = v.nextSn) :
    receivingCopy v f = some ⟨v.got, f.data.drop 1, v.chunk⟩ := by
  simp only [receivingCopy, pci, sn, ne_eq, not_true_eq_false, if_false, chunk_eq_min]
  rfl

/-- A frame that is read while no reassembly is open. -/
theorem idle_effect (own : f.maskedId = addr.rxId) (closed : v.receiving = false) :
    AnswerEffect addr outCap (.loop v) (.received f) (idleCopy outCap f)
      (recvIdle outCap v f) := by
  by_cases first : f.pci = pciFf
  · by_cases opens : Opens outCap f
    · rw [idleCopy_opens opens, recvIdle_opens opens]
      exact .opened own closed opens
    · rw [idleCopy_refused opens (not_delivers first (by decide)), recvIdle_badLength first opens]
      exact .badLength own closed first opens
  · by_cases delivers : Delivers outCap f
    · rw [idleCopy_delivers delivers, recvIdle_delivers delivers]
      exact .single own closed delivers
    · rw [idleCopy_refused (fun opens => first opens.1) delivers, recvIdle_ignored first delivers]
      exact .ignored own closed first delivers

/-- A frame that is compared with an open reassembly in time. -/
theorem receiving_effect {t : UInt64} (timely : t ≤ v.deadline) :
    AnswerEffect addr outCap (.check v f) (.time t) (receivingCopy v f) (recvReceiving v f) := by
  by_cases pci : f.pci = pciCf
  · by_cases sn : f.nibble = v.nextSn
    · rw [receivingCopy_accepted pci sn, recvReceiving_accepted pci sn]
      exact .processed timely pci sn
    · have none : receivingCopy v f = none := by
        rw [receivingCopy, if_neg (not_not.mpr pci), if_pos sn]
      rw [none, recvReceiving_mismatch pci sn]
      exact .mismatch timely pci sn
  · rw [receivingCopy, recvReceiving, if_pos pci, if_pos pci]
    exact .aborted timely pci

/-- Some branch is taken, and it is what the code does. -/
theorem answer_effect (addr : IsotpAddr) (outCap : Nat) (s : RecvState) (a : IoAnswer) :
    AnswerEffect addr outCap s a (recvCopy addr outCap s a) (recvResume addr outCap s a) := by
  cases s with
  | loop v =>
      cases a with
      | received f =>
          simp only [recvCopy, recvResume]
          split_ifs with foreign receiving
          · exact .foreign foreign
          · exact .taken (not_not.mp foreign) receiving
          · exact idle_effect (not_not.mp foreign) (Bool.eq_false_iff.mpr receiving)
      | interrupted => exact .interrupted
      | failed => exact .failed
      | _ => exact .unasked rfl
  | sendFc v =>
      cases a with
      | sent rc =>
          by_cases good : rc = 0
          · subst good
            exact .sent
          · simp only [recvCopy, recvResume, if_pos good]
            exact .unsent good
      | _ => exact .unasked rfl
  | armFf v =>
      cases a with
      | time t => exact .armed
      | _ => exact .unasked rfl
  | check v f =>
      cases a with
      | time t =>
          simp only [recvCopy, recvResume]
          split_ifs with late
          · exact .late late
          · exact receiving_effect (UInt64.not_lt.mp late)
      | _ => exact .unasked rfl
  | armCf v =>
      cases a with
      | time t =>
          simp only [recvCopy, recvResume]
          split_ifs with whole
          · exact .completed whole
          · exact .continued (Nat.lt_of_not_ge whole)
      | _ => exact .unasked rfl
  | done v rc => cases a <;> exact .unasked rfl

end Branches

/-! ## The record of an answer -/

/-- The record of an answer that leads to this place. -/
def answered (addr : IsotpAddr) (s : RecvState) (a : IoAnswer) (next : RecvState) : RecvVisit :=
  ⟨s, a, ioEvent (recvCall addr s) a, next⟩

theorem visit_recvStep (addr : IsotpAddr) (outCap : Nat) (s : RecvState) (a : IoAnswer) :
    visit (recvStep addr outCap) s a = answered addr s a (recvResume addr outCap s a) := rfl

section Record

variable {addr : IsotpAddr} {past : List RecvVisit} {v : RecvVars} {f : CanFrame}
  {next : RecvState}

theorem consumed_received :
    consumedFrames (past ++ [answered addr (.loop v) (.received f) next]) =
      consumedFrames past ++ [f] :=
  consumedFrames_snoc past _

theorem last_received :
    (consumedFrames (past ++ [answered addr (.loop v) (.received f) next])).getLast? = some f := by
  rw [consumed_received, List.getLast?_concat]

theorem own_received (own : f.maskedId = addr.rxId) :
    ownFrames addr (past ++ [answered addr (.loop v) (.received f) next]) =
      ownFrames addr past ++ [f] := by
  rw [ownFrames, consumed_received, framesOn_snoc_own own, ownFrames]

theorem own_foreign (other : f.maskedId ≠ addr.rxId) :
    ownFrames addr (past ++ [answered addr (.loop v) (.received f) next]) =
      ownFrames addr past := by
  rw [ownFrames, consumed_received, framesOn_snoc_other other, ownFrames]

end Record

section Moves

variable {addr : IsotpAddr} {outCap outLen : Nat} {out : List UInt8} {answers : List IoAnswer}
  {s : RecvState}

/-- A place other than the read is left with every answer to its call. -/
theorem AnswerEffect.unasked_of_still {next : RecvState} {a : IoAnswer} {copy : Option Memcpy}
    (effect : AnswerEffect addr outCap s a copy next) (still : next = s)
    (reads : ∀ v, s ≠ .loop v) : (recvCall addr s).takes a = false := by
  cases effect with
  | unasked other => exact other
  | interrupted | failed | foreign | taken | ignored | badLength | single | opened =>
      exact absurd rfl (reads _)
  | _ => cases still

/-- The answer that has brought a call to where it stands, unless it stands at its entry.
The answers after it have left the call there. -/
theorem recvRun_last_move (standing : recvRun addr out outCap outLen answers = s)
    (moved : s ≠ isotpRecv out outLen) :
    ∃ past a later copy,
      recvTrace addr out outCap outLen answers =
          recvTrace addr out outCap outLen past ++
            answered addr (recvRun addr out outCap outLen past) a s :: later ∧
        recvRun addr out outCap outLen past ≠ s ∧
        AnswerEffect addr outCap (recvRun addr out outCap outLen past) a copy s ∧
        ∀ w ∈ later, w = answered addr s w.input s ∧
          ∃ copy, AnswerEffect addr outCap s w.input copy s := by
  have start : run (recvStep addr outCap) (isotpRecv out outLen) answers = s := standing
  obtain ⟨past, a, rest, split, other, arrived, resting⟩ :=
    exists_last_move (recvStep addr outCap) (isotpRecv out outLen) answers (start ▸ moved)
  rw [start] at other arrived resting
  have effect := answer_effect addr outCap (recvRun addr out outCap outLen past) a
  have resumed : recvResume addr outCap (recvRun addr out outCap outLen past) a = s := arrived
  rw [resumed] at effect
  refine ⟨past, a, trace (recvStep addr outCap) s rest, _, ?_, other, effect, ?_⟩
  · rw [recvTrace, split, trace_append, trace_cons, visit_recvStep, arrived, recvTrace]
    exact congrArg (fun next => _ ++ answered addr _ a next :: _) resumed
  · intro w member
    obtain ⟨same, stays⟩ := resting w member
    have still : recvResume addr outCap s w.input = s := by
      rw [same] at stays
      exact stays
    refine ⟨?_, recvCopy addr outCap s w.input, ?_⟩
    · rw [visit_recvStep, still] at same
      exact same
    · have idle := answer_effect addr outCap s w.input
      rwa [still] at idle

end Moves

end VecuUds
