import VecuUds.Isotp.Reassembly

/-!
# Lost and repeated consecutive frames

The sender numbers its consecutive frames modulo 16, the receiver counts along. Between the
two, frames may be lost, up to fifteen in a row before one that arrives, and a frame may
arrive again right after itself. The receiver then never takes the frames for a message
unless the whole message arrived in front of the first repetition.
-/

namespace VecuUds

open Foundation

/-! ## The frames of a message, as the receiver numbers them -/

section Frames

variable {id : UInt32} {data : List UInt8}

theorem length_cfFrames (offset : Nat) (sn : UInt8) :
    (cfFrames id data offset sn).length = (data.length - offset + 6) / 7 := by
  fun_induction cfFrames id data offset sn with
  | case1 offset sn inside ih =>
      rw [List.length_cons, ih, sendChunk_eq]
      omega
  | case2 offset sn past =>
      rw [List.length_nil]
      omega

theorem numbered_cfFrames (offset : Nat) (sn : UInt8) {n : Nat} (start : sn.toNat = n % 16) :
    Numbered (fun f : CanFrame => f.nibble.toNat) 16 n (cfFrames id data offset sn) := by
  fun_induction cfFrames id data offset sn generalizing n with
  | case1 offset sn inside ih =>
      refine .cons ?_ (ih ?_)
      · have low : (sn &&& 0x0F).toNat = sn.toNat % 16 := Nat.and_two_pow_sub_one_eq_mod _ 4
        simp only [(cfFrame_pci id sn _).2, low, start]
        omega
      · rw [toNat_succ_nibble, start]
        omega
  | case2 => exact .nil

theorem pci_of_mem_cfFrames (offset : Nat) (sn : UInt8) :
    ∀ f ∈ cfFrames id data offset sn, f.pci = pciCf := by
  fun_induction cfFrames id data offset sn with
  | case1 offset sn inside ih =>
      intro f member
      rcases List.mem_cons.mp member with rfl | later
      · exact (cfFrame_pci id sn _).1
      · exact ih f later
  | case2 =>
      intro f member
      cases member

theorem inSequence_cfFrames : InSequence (cfFrames id data 6 1) :=
  ⟨pci_of_mem_cfFrames 6 1, numbered_cfFrames 6 1 rfl⟩

end Frames

/-! ## What arrives in sequence -/

section Arrival

variable {ff : CanFrame} {cfs delivered : List CanFrame}

/-- What arrives in sequence from the start is the start of the message. -/
theorem InSequence.front {block : List CanFrame} (accepted : InSequence block)
    (sequence : InSequence cfs) (lossy : Lossy 15 0 cfs delivered)
    (arrived : block <+: delivered) : block <+: cfs := by
  obtain rfl | ⟨-, front⟩ := lossy.prefix_of_numbered (by decide) (by decide) sequence.numbered
    arrived accepted.numbered
  · exact List.nil_prefix
  · exact front

/-- Only the first of the frames can open a reassembly, or be a single frame. -/
theorem eq_head_of_block {g : CanFrame} {before block : List CanFrame}
    (sequence : InSequence cfs) (lossy : Lossy 15 0 cfs delivered)
    (arrived : before ++ g :: block <+: ff :: delivered) (kind : g.pci ≠ pciCf) :
    before = [] ∧ g = ff ∧ block <+: delivered := by
  cases before with
  | nil =>
      obtain ⟨same, rest⟩ := List.cons_prefix_cons.mp arrived
      exact ⟨rfl, same, rest⟩
  | cons b before =>
      obtain ⟨-, rest⟩ := List.cons_prefix_cons.mp arrived
      have member : g ∈ delivered :=
        rest.subset (List.mem_append_right before List.mem_cons_self)
      exact absurd (sequence.pci g (lossy.mem member)) kind

/-- An open reassembly is the one of the message, and has its first consecutive frames. -/
theorem Partial.front {outCap : Nat} {own block : List CanFrame} {v : RecvVars} {g : CanFrame}
    (opened : Partial outCap own v g block) (sequence : InSequence cfs)
    (lossy : Lossy 15 0 cfs delivered) (arrived : own <+: ff :: delivered) :
    g = ff ∧ own = ff :: block ∧ block <+: cfs := by
  obtain ⟨before, rfl⟩ := opened.tail
  have kind : g.pci ≠ pciCf := by
    rw [opened.pci]
    decide
  obtain ⟨rfl, rfl, rest⟩ := eq_head_of_block sequence lossy arrived kind
  exact ⟨rfl, rfl, opened.sequence.front sequence lossy rest⟩

/-- A whole message among the frames is the message that was sent. -/
theorem Carries.whole {p : List UInt8} {before block : List CanFrame} (carries : Carries block p)
    (sequence : InSequence cfs) (lossy : Lossy 15 0 cfs delivered)
    (arrived : before ++ block <+: ff :: delivered) (pci : ff.pci = pciFf)
    (count : cfs.length = (ff.ffLength - 6 + 6) / 7) :
    before ++ block = ff :: cfs ∧ cfs <+: delivered := by
  cases carries with
  | single single =>
      have kind : pciSf ≠ pciCf := by decide
      obtain ⟨-, rfl, -⟩ := eq_head_of_block sequence lossy arrived (single ▸ kind)
      exact absurd (pci.symm.trans single) (by decide)
  | @multi g block _ first length range head number numbered rest =>
      have kind : pciFf ≠ pciCf := by decide
      obtain ⟨rfl, rfl, rest⟩ := eq_head_of_block sequence lossy arrived (first ▸ kind)
      have same : block.length = cfs.length := by rw [number, count, length]
      have whole := (numbered.front sequence lossy rest).eq_of_length same
      subst whole
      exact ⟨rfl, rest⟩

end Arrival

/-! ## The call -/

/-- What a call has seen of the frames of a message, at every place. A call that has not
returned has seen no frame out of sequence, but for one that it may still have to check;
without room for the message its receiver is idle. A call that has returned has returned -1,
at the first frame out of sequence. -/
def Seen (outCap : Nat) (ff : CanFrame) (cfs own : List CanFrame) : RecvState → Prop
  | .loop v =>
      if outCap < ff.ffLength then v.receiving = false
      else own <+: ff :: cfs ∧ (v.receiving = true ↔ own ≠ [])
  | .sendFc _ => own = [ff]
  | .armFf _ => own = [ff]
  | .check _ f => ∃ before, own = ff :: (before ++ [f]) ∧ before <+: cfs
  | .armCf _ => ∃ before f, own = ff :: (before ++ [f]) ∧ before ++ [f] <+: cfs
  | .done _ rc =>
      rc = -1 ∧ ∃ before f, own = ff :: (before ++ [f]) ∧ before <+: cfs ∧
        f.nibble.toNat ≠ (1 + before.length) % 16

/-- The call that a place makes has not been answered since the place was reached. -/
def Unanswered (addr : IsotpAddr) (past : List RecvVisit) (s : RecvState) : Prop :=
  ∃ earlier v later, past = earlier ++ v :: later ∧ v.before ≠ s ∧ v.after = s ∧
    ∀ w ∈ later, (recvCall addr s).takes w.input = false

/-- The call has returned -1 at the first frame that is out of sequence, or it has not
returned: it waits for a frame, having seen none out of sequence, or for the answer to a
write or a clock reading, which has not come yet. -/
def RejectsOrWaits (addr : IsotpAddr) (outCap : Nat) (ff : CanFrame) (cfs : List CanFrame)
    (past : List RecvVisit) (s : RecvState) : Prop :=
  Seen outCap ff cfs (ownFrames addr past) s ∧ ((∀ v, s ≠ .loop v) → Unanswered addr past s)

/-- An answer from outside has ended the call, with the code of that answer. It is the last
answer that the call has taken, and before it the call was waiting. -/
def CutShort (addr : IsotpAddr) (outCap : Nat) (ff : CanFrame) (cfs : List CanFrame)
    (past : List RecvVisit) (s : RecvState) : Prop :=
  ∃ earlier v later vars rc, past = earlier ++ v :: later ∧ s = .done vars rc ∧ v.after = s ∧
    cutCode v = some rc ∧ RejectsOrWaits addr outCap ff cfs earlier v.before ∧
    ∀ w ∈ later, w.before = s

section Call

variable {addr : IsotpAddr} {outCap outLen : Nat} {out : List UInt8} {answers : List IoAnswer}
  {past : List RecvVisit} {ff : CanFrame} {cfs delivered : List CanFrame} {s : RecvState}

/-- An idle receiver has seen none of the frames, or has no room for the message. -/
theorem own_eq_nil_of_idle (sequence : InSequence cfs) (lossy : Lossy 15 0 cfs delivered)
    (arrived : ownFrames addr past <+: ff :: delivered) (opens : Opens outCap ff)
    (aborted : (∃ f ∈ ownFrames addr past, Opens outCap f) →
      2 ≤ (ownFrames addr past).countP fun f => f.pci ≠ pciCf) :
    ownFrames addr past = [] := by
  cases own : ownFrames addr past with
  | nil => rfl
  | cons g rest =>
      rw [own] at arrived aborted
      obtain ⟨rfl, later⟩ := List.cons_prefix_cons.mp arrived
      have twice := aborted ⟨g, List.mem_cons_self, opens⟩
      have none : rest.countP (fun f => f.pci ≠ pciCf) = 0 := by
        apply List.countP_eq_zero.mpr
        intro f member
        have kind := sequence.pci f (lossy.mem (later.subset member))
        simp [kind]
      rw [List.countP_cons, none] at twice
      split_ifs at twice <;> omega

/-- What a call has seen that has not returned, of the frames of one message, lost and
repeated ones. -/
theorem Reassembles.seen (here : Reassembles addr outCap past s) (sequence : InSequence cfs)
    (lossy : Lossy 15 0 cfs delivered) (arrived : ownFrames addr past <+: ff :: delivered)
    (room : ff.ffLength ≤ outCap → Opens outCap ff) (running : ∀ v rc, s ≠ .done v rc) :
    Seen outCap ff cfs (ownFrames addr past) s := by
  cases here with
  | idle closed aborted =>
      rw [Seen]
      split_ifs with small
      · exact closed
      · rw [own_eq_nil_of_idle sequence lossy arrived (room (Nat.le_of_not_lt small)) aborted]
        exact ⟨List.nil_prefix, by simp [closed]⟩
  | loop opened more =>
      obtain ⟨rfl, own, front⟩ := opened.front sequence lossy arrived
      have fits := opened.range.2.2
      rw [← opened.total] at fits
      rw [Seen, if_neg (Nat.not_lt.mpr fits), own]
      exact ⟨List.cons_prefix_cons.mpr ⟨rfl, front⟩, by simp [opened.started]⟩
  | sendFc opened => exact (opened.front sequence lossy arrived).2.1
  | armFf opened => exact (opened.front sequence lossy arrived).2.1
  | @check v f g block before own last opened more =>
      rw [own] at arrived ⊢
      obtain ⟨-, split, front⟩ :=
        opened.front sequence lossy ((List.prefix_append before [f]).trans arrived)
      exact ⟨block, by rw [split, List.cons_append], front⟩
  | armCf last opened =>
      obtain ⟨-, own, front⟩ := opened.front sequence lossy arrived
      exact ⟨_, _, own, front⟩
  | returned => exact absurd rfl (running _ _)
  | failed => exact absurd rfl (running _ _)

/-- A place other than the read has been reached by an answer, and its call has not been
answered since. -/
theorem unanswered_recvRun (standing : recvRun addr out outCap outLen answers = s)
    (reads : ∀ v, s ≠ .loop v) :
    Unanswered addr (recvTrace addr out outCap outLen answers) s := by
  obtain ⟨past, a, later, copy, split, other, effect, resting⟩ :=
    recvRun_last_move standing (reads _)
  refine ⟨_, _, later, split, other, rfl, ?_⟩
  intro w member
  obtain ⟨-, copy, idle⟩ := resting w member
  exact idle.unasked_of_still rfl reads

/-- A call that has not returned is waiting. -/
theorem waits_of_running (sequence : InSequence cfs) (lossy : Lossy 15 0 cfs delivered)
    (room : ff.ffLength ≤ outCap → Opens outCap ff)
    (arrived : ownFrames addr (recvTrace addr out outCap outLen answers) <+: ff :: delivered)
    (standing : recvRun addr out outCap outLen answers = s) (running : ∀ v rc, s ≠ .done v rc) :
    RejectsOrWaits addr outCap ff cfs (recvTrace addr out outCap outLen answers) s := by
  have here := recvRun_reassembles addr out outCap outLen answers
  rw [standing] at here
  exact ⟨here.seen sequence lossy arrived room running, unanswered_recvRun standing⟩

/-- The answer that ends a call with another code than 0 comes from outside, or is the
clock reading with which a frame out of sequence is checked in time. -/
theorem AnswerEffect.ended {next : RecvState} {a : IoAnswer} {copy : Option Memcpy} {v : RecvVars}
    {rc : Int} (effect : AnswerEffect addr outCap s a copy next) (moved : s ≠ next)
    (returned : next = .done v rc) (code : rc ≠ 0) :
    (∀ w r, s ≠ .done w r) ∧
      (cutCode (answered addr s a next) = some rc ∨
        rc = -1 ∧ ∃ f t, s = .check v f ∧ a = .time t ∧ f.nibble ≠ v.nextSn) := by
  cases effect with
  | unasked => exact absurd rfl moved
  | interrupted =>
      cases returned
      exact ⟨fun _ _ => RecvState.noConfusion, .inl rfl⟩
  | failed =>
      cases returned
      exact ⟨fun _ _ => RecvState.noConfusion, .inl rfl⟩
  | single | completed =>
      cases returned
      exact absurd rfl code
  | unsent bad =>
      cases returned
      exact ⟨fun _ _ => RecvState.noConfusion, .inl (if_pos bad)⟩
  | late late =>
      cases returned
      refine ⟨fun _ _ => RecvState.noConfusion, .inl (if_neg ?_)⟩
      simpa [RecvState.timely] using late
  | mismatch timely pci wrong =>
      cases returned
      exact ⟨fun _ _ => RecvState.noConfusion, .inr ⟨rfl, _, _, rfl, rfl, wrong⟩⟩
  | _ => cases returned

/-- A call that has returned consumes nothing more. -/
theorem ownFrames_returned {v : RecvVars} {rc : Int} {later : List RecvVisit}
    (resting : ∀ w ∈ later, w = answered addr (.done v rc) w.input (.done v rc)) :
    ownFrames addr later = [] := by
  have none : consumedFrames later = [] := by
    apply List.filterMap_eq_nil_iff.mpr
    intro w member
    rw [resting w member]
    rfl
  rw [ownFrames, none]
  rfl

/-- How a call has ended that gets the frames of one message and has not returned 0. -/
theorem rejects_or_cut {v : RecvVars} {rc : Int} (sequence : InSequence cfs)
    (lossy : Lossy 15 0 cfs delivered) (room : ff.ffLength ≤ outCap → Opens outCap ff)
    (arrived : ownFrames addr (recvTrace addr out outCap outLen answers) <+: ff :: delivered)
    (standing : recvRun addr out outCap outLen answers = .done v rc) (code : rc ≠ 0) :
    RejectsOrWaits addr outCap ff cfs (recvTrace addr out outCap outLen answers) (.done v rc) ∨
      CutShort addr outCap ff cfs (recvTrace addr out outCap outLen answers) (.done v rc) := by
  have pending := unanswered_recvRun standing fun _ => RecvState.noConfusion
  obtain ⟨past, a, later, copy, split, other, effect, resting⟩ :=
    recvRun_last_move standing RecvState.noConfusion
  obtain ⟨running, cut | ⟨rfl, f, t, checked, rfl, wrong⟩⟩ := effect.ended other rfl code
  · right
    refine ⟨_, _, later, v, rc, split, rfl, rfl, cut, ?_, ?_⟩
    · refine waits_of_running sequence lossy room ?_ rfl running
      rw [split, ownFrames_append] at arrived
      exact (List.prefix_append _ _).trans arrived
    · intro w member
      rw [(resting w member).1]
      rfl
  · left
    have consumed : ownFrames addr (recvTrace addr out outCap outLen answers) =
        ownFrames addr (recvTrace addr out outCap outLen past) := by
      have quiet := ownFrames_returned fun w member => (resting w member).1
      rw [split, ← List.singleton_append, ownFrames_append, ownFrames_append, quiet, checked]
      exact List.append_nil _
    have here := recvRun_reassembles addr out outCap outLen past
    rw [checked] at here
    cases here with
    | @check _ _ g block before own last opened more =>
        rw [consumed, own] at arrived
        obtain ⟨-, front, inside⟩ :=
          opened.front sequence lossy ((List.prefix_append before [f]).trans arrived)
        refine ⟨⟨rfl, block, f, ?_, inside, ?_⟩, fun _ => pending⟩
        · rw [consumed, own, front, List.cons_append]
        · rw [← opened.sn]
          intro same
          exact wrong (UInt8.toNat_inj.mp same)

end Call

/-- **Lost or repeated frames are never taken for a message.** Consecutive frames get lost,
at most fifteen in a row before one that arrives, or arrive again right after themselves. A
call that gets what is left returns 0 only if the whole message arrived in order in front
of the first repetition. If it did not, the call returns -1 at the first frame out of
sequence, or waits, or an answer from outside has ended it while it waited, with the code
of that answer: 1 for an interrupted read, -1 for a failed read or write and for a clock
reading past the deadline. -/
theorem lost_frames_never_accepted {sender addr : IsotpAddr} {data out : List UInt8}
    {outCap outLen : Nat} {sendAnswers answers : List IoAnswer} {ff : CanFrame}
    {cfs delivered : List CanFrame}
    (range : 8 ≤ data.length ∧ data.length ≤ isotpMaxPayload)
    (completed : sendRun sender data sendAnswers = .done 0)
    (produced : emittedFrames (sendTrace sender data sendAnswers) = ff :: cfs)
    (lossy : Lossy 15 0 cfs delivered)
    (arrived : ownFrames addr (recvTrace addr out outCap outLen answers) <+: ff :: delivered) :
    (∀ v, recvRun addr out outCap outLen answers = .done v 0 →
        cfs <+: delivered ∧
          ownFrames addr (recvTrace addr out outCap outLen answers) = ff :: cfs) ∧
      (¬ cfs <+: delivered →
        RejectsOrWaits addr outCap ff cfs (recvTrace addr out outCap outLen answers)
            (recvRun addr out outCap outLen answers) ∨
          CutShort addr outCap ff cfs (recvTrace addr out outCap outLen answers)
            (recvRun addr out outCap outLen answers)) := by
  have frames := emitted_of_completed sender range.1 range.2 completed
  rw [produced] at frames
  obtain ⟨rfl, rfl⟩ := List.cons.inj frames
  have sequence : InSequence (cfFrames sender.txId data 6 1) := inSequence_cfFrames
  have length := ffFrame_ffLength sender.txId range.2
  have here := recvRun_reassembles addr out outCap outLen answers
  have whole : ∀ v, recvRun addr out outCap outLen answers = .done v 0 →
      cfFrames sender.txId data 6 1 <+: delivered ∧
        ownFrames addr (recvTrace addr out outCap outLen answers) =
          ffFrame sender.txId data :: cfFrames sender.txId data 6 1 := by
    intro v success
    rw [success] at here
    cases here with
    | returned own last _ carries fits =>
        rw [own] at arrived ⊢
        have both := carries.whole sequence lossy arrived (ffFrame_pci sender.txId)
          (by rw [length_cfFrames, length])
        exact ⟨both.2, both.1⟩
    | failed code => exact absurd rfl code
  refine ⟨whole, ?_⟩
  intro missing
  have room : (ffFrame sender.txId data).ffLength ≤ outCap →
      Opens outCap (ffFrame sender.txId data) := by
    intro room
    exact ⟨ffFrame_pci sender.txId, by rw [length]; exact range.1, by rw [length]; exact range.2,
      room⟩
  cases standing : recvRun addr out outCap outLen answers with
  | done v rc =>
      refine rejects_or_cut sequence lossy room arrived standing ?_
      rintro rfl
      exact missing (whole v standing).1
  | _ => exact .inl (waits_of_running sequence lossy room arrived standing (by simp))

/-! ## Three frames -/

def fifteenBytes : List UInt8 := [1, 2, 3, 4, 5, 6, 7, 8, 9, 10, 11, 12, 13, 14, 15]

def fifteenFf : CanFrame := ffFrame 0x7E8 fifteenBytes

def fifteenCf1 : CanFrame := cfFrame 0x7E8 1 [7, 8, 9, 10, 11, 12, 13]

def fifteenCf2 : CanFrame := cfFrame 0x7E8 2 [14, 15]

/-- The server's send of the fifteen bytes, with the tester's flow control. -/
def fifteenSent : List IoAnswer :=
  [.sent 0, .time 0, .received (fcFrame 0x7E0), .sent 0, .sent 0]

/-- The first consecutive frame arrives twice. -/
def repeatedFirst : List IoAnswer :=
  [.received fifteenFf, .sent 0, .time 0, .received fifteenCf1, .time 1, .time 1,
    .received fifteenCf1, .time 2]

/-- The first consecutive frame arrives five seconds late, the second never. -/
def lateFirst : List IoAnswer :=
  [.received fifteenFf, .sent 0, .time 0, .received fifteenCf1, .time 5000]

theorem lost_frames_never_accepted_repeated_first :
    RejectsOrWaits ⟨0x7E8, 0x7E0⟩ 16 fifteenFf [fifteenCf1, fifteenCf2]
        (recvTrace ⟨0x7E8, 0x7E0⟩ (List.replicate 16 0) 16 0 repeatedFirst)
        (recvRun ⟨0x7E8, 0x7E0⟩ (List.replicate 16 0) 16 0 repeatedFirst) ∨
      CutShort ⟨0x7E8, 0x7E0⟩ 16 fifteenFf [fifteenCf1, fifteenCf2]
        (recvTrace ⟨0x7E8, 0x7E0⟩ (List.replicate 16 0) 16 0 repeatedFirst)
        (recvRun ⟨0x7E8, 0x7E0⟩ (List.replicate 16 0) 16 0 repeatedFirst) := by
  have completed : sendRun ⟨0x7E0, 0x7E8⟩ fifteenBytes fifteenSent = .done 0 := rfl
  have produced : emittedFrames (sendTrace ⟨0x7E0, 0x7E8⟩ fifteenBytes fifteenSent) =
      [fifteenFf, fifteenCf1, fifteenCf2] := rfl
  have lossy : Lossy 15 0 [fifteenCf1, fifteenCf2] [fifteenCf1, fifteenCf1, fifteenCf2] :=
    .deliver 1 (by decide) (.deliver 0 (by decide) .nil)
  have arrived : ownFrames ⟨0x7E8, 0x7E0⟩
      (recvTrace ⟨0x7E8, 0x7E0⟩ (List.replicate 16 0) 16 0 repeatedFirst) <+:
        [fifteenFf, fifteenCf1, fifteenCf1, fifteenCf2] := ⟨[fifteenCf2], rfl⟩
  exact (lost_frames_never_accepted (by decide) completed produced lossy arrived).2 (by decide)

/-- The call gives up at a frame that is in sequence. -/
theorem late_frame_ends_call :
    sendRun ⟨0x7E0, 0x7E8⟩ fifteenBytes fifteenSent = .done 0 ∧
      emittedFrames (sendTrace ⟨0x7E0, 0x7E8⟩ fifteenBytes fifteenSent) =
        [fifteenFf, fifteenCf1, fifteenCf2] ∧
      Lossy 15 0 [fifteenCf1, fifteenCf2] [fifteenCf1] ∧
      ownFrames ⟨0x7E8, 0x7E0⟩
          (recvTrace ⟨0x7E8, 0x7E0⟩ (List.replicate 16 0) 16 0 lateFirst) =
        [fifteenFf, fifteenCf1] ∧
      ¬ [fifteenCf1, fifteenCf2] <+: [fifteenCf1] ∧
      ¬ RejectsOrWaits ⟨0x7E8, 0x7E0⟩ 16 fifteenFf [fifteenCf1, fifteenCf2]
        (recvTrace ⟨0x7E8, 0x7E0⟩ (List.replicate 16 0) 16 0 lateFirst)
        (recvRun ⟨0x7E8, 0x7E0⟩ (List.replicate 16 0) 16 0 lateFirst) := by
  refine ⟨rfl, rfl, .deliver 0 (by decide) (.lose .nil), rfl, by decide, ?_⟩
  rintro ⟨⟨-, before, f, own, -, wrong⟩, -⟩
  have split : [fifteenCf1] = before ++ [f] := (List.cons.inj own).2
  cases before with
  | nil =>
      obtain ⟨rfl, -⟩ := List.cons.inj split
      exact wrong (by decide)
  | cons g rest =>
      have length := congrArg List.length split
      simp at length

end VecuUds
