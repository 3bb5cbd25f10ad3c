import VecuUds.Isotp.Loss

/-!
# What a sender puts on the wire

The frames that `isotp_send` has written, at every point of a call and whatever answers the
call gets: frames of strangers, writes that fail, a tester that never answers. They are a
prefix of one fixed list, the segmentation of the payload, and all of it exactly if the call
returns 0. `Segments` says what that list is on its own terms.
-/

namespace VecuUds

open Foundation

/-- The payload field of a frame: what follows its one or two bytes of protocol. -/
def CanFrame.field (f : CanFrame) : List UInt8 :=
  if f.pci = pciFf then f.data.drop 2 else f.data.drop 1

/-- The frames of a payload, as `isotp_send` builds them. -/
def segmentation (txId : UInt32) (data : List UInt8) : List CanFrame :=
  if data.length ≤ 7 then [sfFrame txId data]
  else ffFrame txId data :: cfFrames txId data 6 1

/-- The frames are one message that carries the payload, each full and with the sender's
identifier, and their fields joined are the payload and zeros. -/
structure Segments (txId : UInt32) (data : List UInt8) (frames : List CanFrame) : Prop where
  carries : Carries frames data
  canId : ∀ f ∈ frames, f.canId = txId &&& canSffMask
  dlc : ∀ f ∈ frames, f.canDlc = 8
  padded : ∃ n, frames.flatMap CanFrame.field = data ++ List.replicate n 0x00

section Segmentation

variable {id : UInt32} {data : List UInt8}

/-- The bytes of a consecutive frame past its first one. -/
theorem drop_cfFrame (id : UInt32) (sn : UInt8) {chunk : List UInt8} (short : chunk.length ≤ 7) :
    (cfFrame id sn chunk).data.drop 1 = chunk ++ List.replicate (7 - chunk.length) 0x00 := by
  have tail : (cfFrame id sn chunk).data.drop 1 =
      (chunk ++ List.replicate 8 isotpPadding).take 7 := rfl
  rw [tail, List.take_append, List.take_of_length_le short, List.take_replicate,
    Nat.min_eq_left (by omega)]
  rfl

theorem drop_cfFrames (id : UInt32) (data : List UInt8) (offset : Nat) (sn : UInt8) :
    ∃ n, ((cfFrames id data offset sn).flatMap fun f => f.data.drop 1) =
      data.drop offset ++ List.replicate n 0x00 := by
  fun_induction cfFrames id data offset sn with
  | case1 offset sn inside ih =>
      have size := sendChunk_eq data offset
      have length : ((data.drop offset).take (sendChunk data offset)).length =
          sendChunk data offset := by
        rw [List.length_take, List.length_drop]
        omega
      have first := drop_cfFrame id sn (by rw [length]; omega)
      rw [List.flatMap_cons, first, length]
      by_cases full : offset + sendChunk data offset < data.length
      · obtain ⟨n, rest⟩ := ih
        have seven : 7 - sendChunk data offset = 0 := by omega
        refine ⟨n, ?_⟩
        rw [rest, seven, List.replicate_zero, List.append_nil, ← List.append_assoc,
          ← List.drop_drop, List.take_append_drop]
      · refine ⟨7 - sendChunk data offset, ?_⟩
        rw [cfFrames_of_ge (Nat.le_of_not_lt full), List.flatMap_nil, List.append_nil,
          List.take_of_length_le (by rw [List.length_drop]; omega)]
  | case2 offset sn past =>
      refine ⟨0, ?_⟩
      rw [List.flatMap_nil, List.replicate_zero, List.append_nil,
        List.drop_eq_nil_of_le (Nat.le_of_not_lt past)]

theorem drop_ffFrame (long : 6 ≤ data.length) :
    (ffFrame id data).data.drop 2 = data.take 6 := by
  have body := ffFrame_body id long
  rwa [List.take_of_length_le (by rw [List.length_drop, (ffFrame id data).size])] at body

theorem canId_of_mem_cfFrames (offset : Nat) (sn : UInt8) :
    ∀ f ∈ cfFrames id data offset sn, f.canId = id &&& canSffMask ∧ f.canDlc = 8 := by
  fun_induction cfFrames id data offset sn with
  | case1 offset sn inside ih => exact List.forall_mem_cons.mpr ⟨⟨rfl, rfl⟩, ih⟩
  | case2 =>
      intro f member
      cases member

theorem segments_single (some : 1 ≤ data.length) (short : data.length ≤ 7) :
    Segments id data [sfFrame id data] := by
  obtain ⟨pci, length⟩ := sfFrame_pci id short
  have other : ¬ (sfFrame id data).pci = pciFf := by rw [pci]; decide
  have tail : (sfFrame id data).data.drop 1 =
      (data ++ List.replicate 8 isotpPadding).take 7 := rfl
  refine ⟨.single pci length ⟨some, short⟩ (sfFrame_body id short), ?_, ?_, 7 - data.length, ?_⟩
  · intro f member
    rw [List.mem_singleton.mp member]
    rfl
  · intro f member
    rw [List.mem_singleton.mp member]
    rfl
  · rw [List.flatMap_singleton, CanFrame.field, if_neg other, tail, List.take_append,
      List.take_of_length_le short, List.take_replicate, Nat.min_eq_left (by omega)]
    rfl

theorem segments_multi (long : 7 < data.length) (bounded : data.length ≤ isotpMaxPayload) :
    Segments id data (ffFrame id data :: cfFrames id data 6 1) := by
  have first : (ffFrame id data).data.drop 2 = data.take 6 := drop_ffFrame (by omega)
  obtain ⟨n, rest⟩ := drop_cfFrames id data 6 1
  have fields : (cfFrames id data 6 1).flatMap CanFrame.field =
      (cfFrames id data 6 1).flatMap fun f => f.data.drop 1 := by
    refine List.flatMap_congr ?_
    intro f member
    have pci := pci_of_mem_cfFrames 6 1 f member
    rw [CanFrame.field, if_neg (by rw [pci]; decide)]
  have length : (data.drop 6).length = data.length - 6 := List.length_drop
  refine ⟨.multi (ffFrame_pci id) (ffFrame_ffLength id bounded) ⟨long, bounded⟩ first
    (length_cfFrames 6 1) inSequence_cfFrames ?_, ?_, ?_, n, ?_⟩
  · rw [rest, ← length, List.take_left]
  · exact List.forall_mem_cons.mpr ⟨rfl, fun f member => (canId_of_mem_cfFrames 6 1 f member).1⟩
  · exact List.forall_mem_cons.mpr ⟨rfl, fun f member => (canId_of_mem_cfFrames 6 1 f member).2⟩
  · rw [List.flatMap_cons, fields, rest, CanFrame.field, if_pos (ffFrame_pci id), first,
      ← List.append_assoc, List.take_append_drop]

/-- The segmentation of a payload is what the wire format asks for. -/
theorem segments_segmentation (id : UInt32) (some : 1 ≤ data.length)
    (bounded : data.length ≤ isotpMaxPayload) : Segments id data (segmentation id data) := by
  unfold segmentation
  split_ifs with short
  · exact segments_single some short
  · exact segments_multi (Nat.lt_of_not_le short) bounded

end Segmentation

/-! ## Every point of a call -/

/-- A place before the consecutive frames belongs to a payload that needs them. -/
def SendState.NeedsCf : SendState → Prop
  | .ff data => 7 < data.length
  | .fcEnter data => 7 < data.length
  | .fcWait data _ => 7 < data.length
  | .fcForeign data _ => 7 < data.length
  | _ => True

/-- The frames written so far, and those that are missing from the segmentation. -/
structure Written (addr : IsotpAddr) (canonical : List CanFrame) (past : List SendVisit)
    (s : SendState) : Prop where
  needs : s.NeedsCf
  owed : s.failed = false → emittedFrames past ++ s.owed addr = canonical
  lost : s.failed = true → ∃ rest, rest ≠ [] ∧ emittedFrames past ++ rest = canonical

section Written

variable {addr : IsotpAddr} {canonical : List CanFrame} {past : List SendVisit}

theorem needsCf_sendLoop (data : List UInt8) (offset : Nat) (sn : UInt8) :
    (sendLoop data offset sn).NeedsCf := by
  unfold sendLoop
  split_ifs <;> trivial

theorem needsCf_sendStep {s : SendState} (needs : s.NeedsCf) (a : IoAnswer) :
    (sendStep addr s a).1.NeedsCf := by
  cases s with
  | sf data => cases a <;> exact needs
  | ff data =>
      cases a with
      | sent rc =>
          simp only [sendStep, sendResume]
          split_ifs
          · trivial
          · exact needs
      | _ => exact needs
  | fcEnter data => cases a <;> exact needs
  | fcWait data deadline =>
      cases a with
      | received f =>
          simp only [sendStep, sendResume, sendFlow]
          split_ifs
          · exact needs
          · trivial
          · exact needsCf_sendLoop data 6 1
          · exact needs
          · trivial
      | failed => trivial
      | _ => exact needs
  | fcForeign data deadline =>
      cases a with
      | time t =>
          simp only [sendStep, sendResume]
          split_ifs
          · trivial
          · exact needs
      | _ => exact needs
  | cf data offset sn =>
      cases a with
      | sent rc =>
          simp only [sendStep, sendResume]
          split_ifs
          · trivial
          · exact needsCf_sendLoop data _ _
      | _ => trivial
  | done rc => cases a <;> trivial

/-- A call that has not returned owes a frame. -/
theorem owed_ne_nil {s : SendState} (needs : s.NeedsCf) (running : ∀ rc, s ≠ .done rc) :
    s.owed addr ≠ [] := by
  have more : ∀ data : List UInt8, 7 < data.length → cfFrames addr.txId data 6 1 ≠ [] := by
    intro data long
    rw [cfFrames_of_lt (by omega)]
    exact List.cons_ne_nil _ _
  cases s with
  | sf data => exact List.cons_ne_nil _ _
  | ff data => exact List.cons_ne_nil _ _
  | fcEnter data => exact more data needs
  | fcWait data deadline => exact more data needs
  | fcForeign data deadline => exact more data needs
  | cf data offset sn => exact List.cons_ne_nil _ _
  | done rc => exact absurd rfl (running rc)

/-- A step that makes a call fail writes nothing. -/
theorem emitted_of_failing {s : SendState} {a : IoAnswer}
    (fails : (sendStep addr s a).1.failed = true) :
    emittedFrames [visit (sendStep addr) s a] = [] := by
  cases a with
  | sent rc =>
      by_cases zero : rc = 0
      · subst zero
        cases s with
        | sf data => cases fails
        | ff data => cases fails
        | cf data offset sn =>
            have sound : ∀ n m, (sendLoop data n m).failed = false := by
              intro n m
              unfold sendLoop
              split_ifs <;> rfl
            exact absurd ((sound _ _).symm.trans fails) (by decide)
        | _ => rfl
      · cases s <;> simp [emittedFrames, visit, sendStep, sendCall, ioEvent, zero]
  | _ => cases s <;> rfl

theorem Written.step {s : SendState} (here : Written addr canonical past s) (a : IoAnswer) :
    Written addr canonical (past ++ [visit (sendStep addr) s a]) (sendStep addr s a).1 := by
  refine ⟨needsCf_sendStep here.needs a, ?_, ?_⟩
  · intro good
    have sound : s.failed = false := by
      cases s with
      | done rc => cases a <;> exact good
      | _ => rfl
    rw [emittedFrames_snoc, List.append_assoc, owed_sendStep addr s a good, here.owed sound]
  · intro fails
    rw [emittedFrames_snoc, emitted_of_failing fails, List.append_nil]
    by_cases running : ∀ rc, s ≠ .done rc
    · have sound : s.failed = false := by
        cases s with
        | done rc => exact absurd rfl (running rc)
        | _ => rfl
      exact ⟨s.owed addr, owed_ne_nil here.needs running, here.owed sound⟩
    · obtain ⟨rc, returned⟩ := not_forall_not.mp running
      apply here.lost
      rw [returned] at fails ⊢
      cases a <;> exact fails

theorem owed_isotpSend {data : List UInt8} (some : 1 ≤ data.length)
    (bounded : data.length ≤ isotpMaxPayload) :
    (isotpSend data).owed addr = segmentation addr.txId data := by
  rw [isotpSend, if_neg (by omega), segmentation]
  split_ifs <;> rfl

theorem sendRun_written (addr : IsotpAddr) {data : List UInt8} (some : 1 ≤ data.length)
    (bounded : data.length ≤ isotpMaxPayload) (answers : List IoAnswer) :
    Written addr (segmentation addr.txId data) (sendTrace addr data answers)
      (sendRun addr data answers) := by
  refine history_invariant (H := Written addr (segmentation addr.txId data)) (sendStep addr)
    ?_ ?_ answers
  · intro past s a here
    exact here.step a
  · refine ⟨?_, fun _ => owed_isotpSend some bounded, ?_⟩
    · rw [isotpSend, if_neg (by omega)]
      split_ifs with short
      · trivial
      · exact Nat.lt_of_not_le short
    · intro fails
      rw [isotpSend, if_neg (by omega)] at fails
      split_ifs at fails <;> cases fails

/-- A call has written a prefix of the segmentation, and all of it exactly if it is through. -/
theorem emitted_prefix (addr : IsotpAddr) {data : List UInt8} (some : 1 ≤ data.length)
    (bounded : data.length ≤ isotpMaxPayload) (answers : List IoAnswer) :
    emittedFrames (sendTrace addr data answers) <+: segmentation addr.txId data ∧
      (emittedFrames (sendTrace addr data answers) = segmentation addr.txId data ↔
        sendRun addr data answers = .done 0) := by
  have here := sendRun_written addr some bounded answers
  cases failed : (sendRun addr data answers).failed with
  | true =>
      obtain ⟨rest, missing, split⟩ := here.lost failed
      refine ⟨⟨rest, split⟩, ?_⟩
      constructor
      · intro whole
        rw [whole] at split
        exact absurd (List.append_right_eq_self.mp split) missing
      · intro returned
        rw [returned] at failed
        cases failed
  | false =>
      have split := here.owed failed
      refine ⟨⟨_, split⟩, ?_⟩
      constructor
      · intro whole
        rw [whole, List.append_right_eq_self] at split
        by_contra unfinished
        refine owed_ne_nil here.needs ?_ split
        intro rc returned
        rw [returned] at failed unfinished
        have zero : rc = 0 := by simpa [SendState.failed] using failed
        exact unfinished (by rw [zero])
      · intro returned
        rw [returned] at split
        exact (List.append_nil _).symm.trans split

end Written

/-! ## Flow control -/

/-- The call has still to get its flow control. -/
def SendState.waits : SendState → Bool
  | .ff _ => true
  | .fcEnter _ => true
  | .fcWait _ _ => true
  | .fcForeign _ _ => true
  | _ => false

/-- The frames of its identifier that a call has read, by the place where it stands. -/
inductive FlowRead (addr : IsotpAddr) (past : List SendVisit) : SendState → Prop where
  | waiting {s : SendState} (place : s.waits = true)
      (passed : ∀ f ∈ framesOn addr.rxId (consumedFrames past), IsFlow fcFsWait f)
      (silent : ∀ f ∈ emittedFrames past, f.pci ≠ pciCf) : FlowRead addr past s
  | cleared {s : SendState} {waits : List CanFrame} {cts : CanFrame} (place : s.waits = false)
      (split : framesOn addr.rxId (consumedFrames past) = waits ++ [cts])
      (passed : ∀ f ∈ waits, IsFlow fcFsWait f) (flow : IsFlow fcFsCts cts) :
      FlowRead addr past s
  | refused {rc : Int} (silent : ∀ f ∈ emittedFrames past, f.pci ≠ pciCf) :
      FlowRead addr past (.done rc)

section Flow

variable {addr : IsotpAddr} {past : List SendVisit}

theorem waits_sendLoop (data : List UInt8) (offset : Nat) (sn : UInt8) :
    (sendLoop data offset sn).waits = false := by
  unfold sendLoop
  split_ifs <;> rfl

/-- A return code of a write delivers no frame. -/
theorem consumed_sent (s : SendState) (rc : Int) :
    consumedFrames [visit (sendStep addr) s (.sent rc)] = [] := by
  by_cases zero : rc = 0
  · subst zero
    cases s <;> rfl
  · cases s <;> simp [consumedFrames, visit, sendStep, sendCall, ioEvent, zero]

/-- Past its flow control, a call reads nothing. -/
theorem waits_sendStep (addr : IsotpAddr) {s : SendState} (place : s.waits = false) (a : IoAnswer) :
    (sendStep addr s a).1.waits = false ∧ consumedFrames [visit (sendStep addr) s a] = [] := by
  cases s with
  | sf data =>
      cases a with
      | sent rc => exact ⟨rfl, consumed_sent _ rc⟩
      | _ => exact ⟨rfl, rfl⟩
  | cf data offset sn =>
      cases a with
      | sent rc =>
          refine ⟨?_, consumed_sent _ rc⟩
          simp only [sendStep, sendResume]
          split_ifs
          · rfl
          · exact waits_sendLoop data _ _
      | _ => exact ⟨rfl, rfl⟩
  | done rc => cases a <;> exact ⟨rfl, rfl⟩
  | ff data => cases place
  | fcEnter data => cases place
  | fcWait data deadline => cases place
  | fcForeign data deadline => cases place

/-- Before its flow control, a call writes no consecutive frame. -/
theorem emitted_waiting {s : SendState} (place : s.waits = true) (a : IoAnswer) :
    ∀ f ∈ emittedFrames [visit (sendStep addr) s a], f.pci ≠ pciCf := by
  intro f member
  cases s with
  | ff data =>
      cases a with
      | sent rc =>
          by_cases zero : rc = 0
          · subst zero
            have written : f = ffFrame addr.txId data := List.mem_singleton.mp member
            rw [written, ffFrame_pci]
            decide
          · simp [emittedFrames, visit, sendStep, sendCall, ioEvent, zero] at member
      | _ => cases member
  | fcEnter data => cases a <;> cases member
  | fcWait data deadline => cases a <;> cases member
  | fcForeign data deadline => cases a <;> cases member
  | sf data => cases place
  | cf data offset sn => cases place
  | done rc => cases place

/-- A frame that the wait reads. -/
theorem FlowRead.received {data : List UInt8} {deadline : UInt64} {f : CanFrame}
    {now : List SendVisit} (frames : consumedFrames now = consumedFrames past ++ [f])
    (passed : ∀ f ∈ framesOn addr.rxId (consumedFrames past), IsFlow fcFsWait f)
    (silent : ∀ f ∈ emittedFrames now, f.pci ≠ pciCf) :
    FlowRead addr now (sendFlow addr data deadline f) := by
  simp only [sendFlow]
  split_ifs with foreign pci cts wait
  · refine .waiting rfl ?_ silent
    rwa [frames, framesOn_snoc_other foreign]
  · exact .refused silent
  · have own := framesOn_snoc_own (not_not.mp foreign) (consumedFrames past)
    rw [← frames] at own
    exact .cleared (waits_sendLoop data 6 1) own passed ⟨not_not.mp pci, cts⟩
  · refine .waiting rfl ?_ silent
    rw [frames, framesOn_snoc_own (not_not.mp foreign)]
    intro g member
    rcases List.mem_append.mp member with old | new
    · exact passed g old
    · rw [List.mem_singleton.mp new]
      exact ⟨not_not.mp pci, wait⟩
  · exact .refused silent

theorem FlowRead.step {s : SendState} (here : FlowRead addr past s) (a : IoAnswer) :
    FlowRead addr (past ++ [visit (sendStep addr) s a]) (sendStep addr s a).1 := by
  cases here with
  | cleared place split passed flow =>
      obtain ⟨next, none⟩ := waits_sendStep addr place a
      refine .cleared next ?_ passed flow
      rw [consumedFrames_snoc, none, List.append_nil, split]
  | @refused rc silent =>
      have quiet : emittedFrames [visit (sendStep addr) (.done rc) a] = [] := by cases a <;> rfl
      have stays : (sendStep addr (.done rc) a).1 = .done rc := by cases a <;> rfl
      rw [stays]
      refine .refused ?_
      rwa [emittedFrames_snoc, quiet, List.append_nil]
  | waiting place passed silent =>
      have still : ∀ f ∈ emittedFrames (past ++ [visit (sendStep addr) s a]), f.pci ≠ pciCf := by
        rw [emittedFrames_snoc]
        exact List.forall_mem_append.mpr ⟨silent, emitted_waiting place a⟩
      have frames := consumedFrames_snoc past (visit (sendStep addr) s a)
      -- an answer that delivers no frame leaves the call waiting or ends it
      have quiet : consumedFrames [visit (sendStep addr) s a] = [] →
          ∀ t : SendState, t.waits = true →
            FlowRead addr (past ++ [visit (sendStep addr) s a]) t := by
        intro none t waiting
        refine .waiting waiting ?_ still
        rwa [frames, none, List.append_nil]
      cases s with
      | ff data =>
          cases a with
          | sent rc =>
              simp only [sendStep, sendResume]
              split_ifs
              · exact .refused still
              · exact quiet (consumed_sent _ rc) _ rfl
          | _ => exact quiet rfl _ rfl
      | fcEnter data => cases a <;> exact quiet rfl _ rfl
      | fcWait data deadline =>
          cases a with
          | received f => exact .received frames passed still
          | failed => exact .refused still
          | _ => exact quiet rfl _ rfl
      | fcForeign data deadline =>
          cases a with
          | time t =>
              simp only [sendStep, sendResume]
              split_ifs
              · exact .refused still
              · exact quiet rfl _ rfl
          | _ => exact quiet rfl _ rfl
      | sf data => cases place
      | cf data offset sn => cases place
      | done rc => cases place

/-- A consecutive frame follows a flow control that clears it to send. -/
theorem cleared_of_cf {data : List UInt8} (long : 7 < data.length)
    (bounded : data.length ≤ isotpMaxPayload) {answers : List IoAnswer} {f : CanFrame}
    (member : f ∈ emittedFrames (sendTrace addr data answers)) (pci : f.pci = pciCf) :
    ∃ waits cts,
      framesOn addr.rxId (consumedFrames (sendTrace addr data answers)) = waits ++ [cts] ∧
        (∀ g ∈ waits, IsFlow fcFsWait g) ∧ IsFlow fcFsCts cts := by
  have here : FlowRead addr (sendTrace addr data answers) (sendRun addr data answers) := by
    refine history_invariant (H := FlowRead addr) (sendStep addr) ?_ ?_ answers
    · intro past s a here
      exact here.step a
    · rw [isotpSend_long long bounded]
      exact .waiting rfl (fun f none => absurd none List.not_mem_nil)
        fun f none => absurd none List.not_mem_nil
  generalize sendRun addr data answers = s at here
  cases here with
  | waiting _ _ silent => exact absurd pci (silent f member)
  | cleared _ split passed flow => exact ⟨_, _, split, passed, flow⟩
  | refused silent => exact absurd pci (silent f member)

end Flow

/-- **What `isotp_send` puts on the wire.** At every point of every call the written frames
are a prefix of the segmentation, and the whole of it exactly if the call has returned 0. For
a payload that takes more than one frame, a consecutive frame is written only if the first
frame of the expected identifier that is no WAIT is a CTS. A payload that is empty or too long
writes nothing and returns `-1`. -/
theorem isotp_send_wire (addr : IsotpAddr) (data : List UInt8) (answers : List IoAnswer) :
    (1 ≤ data.length → data.length ≤ isotpMaxPayload →
      Segments addr.txId data (segmentation addr.txId data) ∧
        emittedFrames (sendTrace addr data answers) <+: segmentation addr.txId data ∧
        (emittedFrames (sendTrace addr data answers) = segmentation addr.txId data ↔
          sendRun addr data answers = .done 0) ∧
        (8 ≤ data.length → ∀ f ∈ emittedFrames (sendTrace addr data answers), f.pci = pciCf →
          ∃ waits cts,
            framesOn addr.rxId (consumedFrames (sendTrace addr data answers)) =
                waits ++ [cts] ∧
              (∀ g ∈ waits, IsFlow fcFsWait g) ∧ IsFlow fcFsCts cts)) ∧
      (data.length = 0 ∨ isotpMaxPayload < data.length →
        emittedFrames (sendTrace addr data answers) = [] ∧
          sendRun addr data answers = .done (-1)) := by
  constructor
  · intro some bounded
    obtain ⟨ahead, whole⟩ := emitted_prefix addr some bounded answers
    refine ⟨segments_segmentation addr.txId some bounded, ahead, whole, ?_⟩
    intro long f member pci
    exact cleared_of_cf long bounded member pci
  · intro refused
    have entry : isotpSend data = .done (-1) := if_pos refused
    obtain ⟨stays, silent⟩ := run_sendStep_done addr (-1) answers
    rw [sendTrace, sendRun, entry]
    exact ⟨silent, stays⟩

end VecuUds
