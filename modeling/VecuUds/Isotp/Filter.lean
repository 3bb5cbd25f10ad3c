import VecuUds.Isotp.Deadline

/-!
# What a frame can influence

Two questions about the frames that a call reads. The first is whether frames for somebody
else can be left out: sender and receiver compare the low eleven bits of the identifier and
not the three flags above it, so an extended, remote or error frame counts as addressed if
those bits agree. The second is whether bytes past the length of a frame matter: the length
code is never read, so they do as soon as the protocol fields announce more than there is.

Each theorem says under which condition on the frames the runs agree.
-/

namespace VecuUds

open Foundation

/-! ## Frames for somebody else -/

/-- `CAN_EFF_FLAG`, `CAN_RTR_FLAG` and `CAN_ERR_FLAG`. -/
def canFlags : UInt32 := 0x80000000 ||| 0x40000000 ||| 0x20000000

/-- A standard data frame with the identifier that the address receives. -/
def Addressed (addr : IsotpAddr) (f : CanFrame) : Prop :=
  f.canId &&& canFlags = 0 ∧ f.maskedId = addr.rxId

instance (addr : IsotpAddr) (f : CanFrame) : Decidable (Addressed addr f) :=
  inferInstanceAs (Decidable (_ ∧ _))

/-- What the caller of `isotp_recv` gets: return code, payload and length. -/
def RecvState.result : RecvState → Option (Int × List UInt8 × Nat)
  | .done v rc => some (rc, if rc = 0 then v.out.take v.outLen else [], v.outLen)
  | _ => none

/-- Every clock reading that the receiver compares with a deadline lies within it. -/
def AllTimely (addr : IsotpAddr) (out : List UInt8) (outCap outLen : Nat)
    (stream : List Arrival) : Prop :=
  ∀ v ∈ recvTrace addr out outCap outLen (stream.flatMap Arrival.answers),
    ∀ t, v.input = .time t → v.before.timely t = true

/-- The answers to a call of `isotp_send`: the return code of its first write, the reading on
entering the wait, the frames that arrive, and the return codes of the further writes. -/
def sendAnswers (first : Int) (entered : UInt64) (stream : List Reading) (codes : List Int) :
    List IoAnswer :=
  .sent first :: .time entered :: (stream.flatMap Reading.answers ++ codes.map IoAnswer.sent)

/-- Frames of this kind can be left out of every stream in time, together with all that are
not addressed: neither the receiver nor the sender can tell. -/
structure Invisible (addr : IsotpAddr) (others : CanFrame → Prop) : Prop where
  receiver : ∀ (out : List UInt8) (outCap outLen : Nat) (stream : List Arrival),
    (∀ a ∈ stream, Addressed addr a.frame ∨ others a.frame) →
    AllTimely addr out outCap outLen stream →
      (recvStream addr out outCap outLen
          (stream.filter fun a => Addressed addr a.frame)).result =
        (recvStream addr out outCap outLen stream).result ∧
      flowStream addr out outCap outLen (stream.filter fun a => Addressed addr a.frame) =
        flowStream addr out outCap outLen stream
  sender : ∀ (data : List UInt8) (first : Int) (entered : UInt64) (stream : List Reading)
    (codes : List Int),
    (∀ r ∈ stream, Addressed addr r.frame ∨ others r.frame) →
    (∀ r ∈ stream, ¬ Late entered r) →
      sendRun addr data (sendAnswers first entered
          (stream.filter fun r => Addressed addr r.frame) codes) =
        sendRun addr data (sendAnswers first entered stream codes) ∧
      emittedFrames (sendTrace addr data (sendAnswers first entered
          (stream.filter fun r => Addressed addr r.frame) codes)) =
        emittedFrames (sendTrace addr data (sendAnswers first entered stream codes))

/-! ### Leaving out what the mask rejects -/

/-- The places of a call of `isotp_send` between two frames that it reads. -/
inductive AtRest (entered : UInt64) : SendState → Prop where
  | waiting (data : List UInt8) : AtRest entered (.fcWait data (entered + isotpNCrMs))
  | sending (data : List UInt8) (offset : Nat) (sn : UInt8) : AtRest entered (.cf data offset sn)
  | done (rc : Int) : AtRest entered (.done rc)

/-- One frame for a call of `isotp_send`. -/
def readFlow (addr : IsotpAddr) (s : SendState) (r : Reading) : SendState × List CanFrame :=
  (run (sendStep addr) s r.answers, emittedFrames (trace (sendStep addr) s r.answers))

section Skipping

variable {addr : IsotpAddr} {entered : UInt64}

theorem AtRest.sendLoop (data : List UInt8) (offset : Nat) (sn : UInt8) :
    AtRest entered (sendLoop data offset sn) := by
  unfold VecuUds.sendLoop
  split_ifs
  · exact .sending data offset sn
  · exact .done 0

theorem AtRest.start (data : List UInt8) (first : Int) :
    AtRest entered (run (sendStep addr) (isotpSend data) [.sent first, .time entered]) := by
  unfold isotpSend
  split_ifs
  · exact .done (-1)
  · exact .done first
  · by_cases good : first = 0
    · subst good
      exact .waiting data
    · simp only [run_cons, run_nil, sendStep, sendResume, ne_eq, good, not_false_eq_true, if_true]
      exact .done (-1)

theorem AtRest.readFlow {s : SendState} (rest : AtRest entered s) (addr : IsotpAddr) (r : Reading) :
    AtRest entered (readFlow addr s r).1 := by
  cases rest with
  | waiting data =>
      simp only [VecuUds.readFlow, Reading.answers, run_cons, run_nil, sendStep, sendResume,
        sendFlow]
      split_ifs
      · simp only
        split_ifs
        · exact .done (-1)
        · exact .waiting data
      · exact .done (-1)
      · have next : AtRest entered (VecuUds.sendLoop data 6 1) := .sendLoop data 6 1
        unfold VecuUds.sendLoop at next ⊢
        split_ifs at next ⊢
        · exact next
        · exact next
      · exact .waiting data
      · exact .done (-1)
  | sending data offset sn => exact .sending data offset sn
  | done rc => exact .done rc

/-- A frame of another identifier that is read in time leaves no trace. -/
theorem AtRest.foreign {s : SendState} (rest : AtRest entered s) {r : Reading}
    (other : r.frame.maskedId ≠ addr.rxId) (timely : ¬ Late entered r) :
    VecuUds.readFlow addr s r = (s, []) := by
  have silent : emittedFrames (trace (sendStep addr) s r.answers) = [] := by
    have single := emitted_readings addr s [r]
    rwa [List.flatMap_singleton] at single
  have stays : run (sendStep addr) s r.answers = s := by
    cases rest with
    | waiting data =>
        have young : ¬ r.time > entered + isotpNCrMs := timely
        simp only [Reading.answers, run_cons, run_nil, sendStep, sendResume, sendFlow, ne_eq,
          other, not_false_eq_true, if_true, young, if_false]
    | sending data offset sn => rfl
    | done rc => rfl
  rw [VecuUds.readFlow, stays, silent]

/-- Foreign frames in time can be left out of what a sender reads. -/
theorem sendAnswers_filter (data : List UInt8) (first : Int) (keep : Reading → Bool)
    {stream : List Reading} (codes : List Int)
    (dropped : ∀ r ∈ stream, keep r = false → r.frame.maskedId ≠ addr.rxId)
    (timely : ∀ r ∈ stream, ¬ Late entered r) :
    sendRun addr data (sendAnswers first entered (stream.filter keep) codes) =
        sendRun addr data (sendAnswers first entered stream codes) ∧
      emittedFrames (sendTrace addr data (sendAnswers first entered (stream.filter keep) codes)) =
        emittedFrames (sendTrace addr data (sendAnswers first entered stream codes)) := by
  have split : ∀ stream, sendAnswers first entered stream codes =
      [.sent first, .time entered] ++
        (stream.flatMap Reading.answers ++ codes.map IoAnswer.sent) := fun _ => rfl
  have runs : ∀ s (stream : List Reading),
      run (sendStep addr) s (stream.flatMap Reading.answers) = run (readFlow addr) s stream :=
    run_flatMap fun _ _ => rfl
  have emits : ∀ s (stream : List Reading),
      emittedFrames (trace (sendStep addr) s (stream.flatMap Reading.answers)) =
        (trace (readFlow addr) s stream).flatMap Visit.output :=
    observe_flatMap rfl emittedFrames_append fun _ _ => rfl
  have start : AtRest entered
      (run (sendStep addr) (isotpSend data) [.sent first, .time entered]) := .start data first
  obtain ⟨states, outputs⟩ := run_filter (P := AtRest entered)
    (fun s r rest => rest.readFlow addr r) keep
    (fun r member out s rest => rest.foreign (dropped r member out) (timely r member)) start
  constructor
  · rw [sendRun, sendRun, split, split, run_append, run_append, run_append, run_append, runs,
      runs, states]
  · rw [sendTrace, sendTrace, split, split, trace_append, trace_append, trace_append,
      trace_append, emittedFrames_append, emittedFrames_append, emittedFrames_append,
      emittedFrames_append, emits, emits, runs, runs, outputs, states]

end Skipping

/-! ### A frame that the mask lets through -/

section Witness

variable {addr : IsotpAddr} {f : CanFrame}

/-- The probe payload: its first six bytes and the two that follow. -/
def probe : List UInt8 := [1, 2, 3, 4, 5, 6, 7, 8]

/-- A transfer of eight bytes. -/
def probeFirst (id : UInt32) : Arrival := ⟨ffFrame id probe, 0, 0, 0⟩

/-- A consecutive frame whose data differ from those of the frame `f`. -/
def probeNext (id : UInt32) (f : CanFrame) : Arrival := ⟨cfFrame id 1 [f.byte 1 + 1, 0], 0, 0, 0⟩

/-- The variables of a call that has read the first frame of the probe. -/
def probeVars (id : UInt32) : RecvVars :=
  (RecvVars.opened ⟨List.replicate 8 0, 0, false, 0, 0, 1, 0⟩ (ffFrame id probe)).armedAt 0

theorem maskedId_self (own : f.maskedId = addr.rxId) : addr.rxId &&& canSffMask = addr.rxId := by
  rw [← own, CanFrame.maskedId, UInt32.and_assoc, UInt32.and_self]

/-- The sender's frames of the tester are standard data frames. -/
theorem addressed_padded (own : f.maskedId = addr.rxId) (bytes : List UInt8) :
    Addressed addr (.padded addr.rxId bytes) := by
  refine ⟨?_, (CanFrame.maskedId_padded _ _).trans (maskedId_self own)⟩
  have apart : canSffMask &&& canFlags = 0 := by decide
  show (addr.rxId &&& canSffMask) &&& canFlags = 0
  rw [UInt32.and_assoc, apart, UInt32.and_zero]

theorem ffLength_probe (id : UInt32) : (ffFrame id probe).ffLength = 8 :=
  ffFrame_ffLength id (by decide)

theorem receive_probeFirst (own : f.maskedId = addr.rxId) :
    receive addr 8 (isotpRecv (List.replicate 8 0) 0) (probeFirst addr.rxId) =
      (.loop (probeVars addr.rxId), [fcFrame addr.txId]) := by
  have length := ffLength_probe addr.rxId
  have opens : Opens 8 (ffFrame addr.rxId probe) := by
    refine ⟨ffFrame_pci _, ?_⟩
    rw [length]
    decide
  have effect : ReceiveEffect addr 8 _ (probeFirst addr.rxId) _ _ :=
    .opened (v := ⟨List.replicate 8 0, 0, false, 0, 0, 1, 0⟩) (addressed_padded own _).2 rfl opens
      rfl
  exact effect.eq

/-- A consecutive frame with the number one completes the probe with its first two bytes. -/
theorem receive_probeVars {a : Arrival} (own : a.frame.maskedId = addr.rxId)
    (first : a.examined = 0) (pci : a.frame.pci = pciCf) (sn : a.frame.nibble = 1) :
    ∃ v, receive addr 8 (.loop (probeVars addr.rxId)) a = (.done v 0, []) ∧ v.outLen = 8 ∧
      v.out.take 8 = [1, 2, 3, 4, 5, 6] ++ (a.frame.data.drop 1).take 2 := by
  have length : (probeVars addr.rxId).totalLen = 8 := ffLength_probe addr.rxId
  have got : (probeVars addr.rxId).got = 6 := rfl
  have chunk : (probeVars addr.rxId).chunk = 2 := by
    rw [RecvVars.chunk, length, got]
    rfl
  have timely : a.examined ≤ (probeVars addr.rxId).deadline := by
    rw [first]
    exact (by decide : (0 : UInt64) ≤ 0 + isotpNCrMs)
  have whole : (probeVars addr.rxId).totalLen ≤
      (probeVars addr.rxId).got + (probeVars addr.rxId).chunk := by rw [length, got, chunk]
  have effect : ReceiveEffect addr 8 (probeVars addr.rxId) a _ _ :=
    .completed own rfl timely pci sn whole
  refine ⟨_, effect.eq, length, ?_⟩
  have size : ((a.frame.data.drop 1).take 2).length = 2 := by
    rw [List.length_take, List.length_drop, a.frame.size]
    rfl
  have eight : (probeVars addr.rxId).out.length = 8 := rfl
  have room : 6 ≤ (probeVars addr.rxId).out.length := by
    rw [eight]
    decide
  have copied : (overwrite (probeVars addr.rxId).out 6 ((a.frame.data.drop 1).take 2)).take
      (6 + ((a.frame.data.drop 1).take 2).length) =
        (probeVars addr.rxId).out.take 6 ++ (a.frame.data.drop 1).take 2 :=
    take_overwrite room
  rw [size] at copied
  simp only [RecvVars.armedAt, RecvVars.extended, got, chunk]
  exact copied

/-- With all readings at zero, none is late. -/
theorem allTimely_of_zero {out : List UInt8} {outCap outLen : Nat} {stream : List Arrival}
    (zero : ∀ a ∈ stream, a.examined = 0 ∧ a.armed = 0) :
    AllTimely addr out outCap outLen stream := by
  intro v member t clock
  obtain ⟨past, i, future, split, rfl⟩ := (mem_trace_iff _).mp member
  have answer : i ∈ stream.flatMap Arrival.answers := by
    rw [split]
    exact List.mem_append_right _ List.mem_cons_self
  obtain ⟨a, inside, here⟩ := List.mem_flatMap.mp answer
  obtain ⟨examined, armed⟩ := zero a inside
  have reading : i = .time t := clock
  rw [reading, Arrival.answers, examined, armed] at here
  have now : t = 0 := by simpa using here
  rw [now]
  simp only [visit, RecvState.timely]
  split
  · exact decide_eq_true (UInt64.le_iff_toNat_le.mpr (Nat.zero_le _))
  · rfl

/-- The byte that the probe compares. -/
theorem ne_probeNext (f : CanFrame) : (f.data.drop 1).take 2 ≠ [f.byte 1 + 1, 0] := by
  intro same
  have head := congrArg (fun bytes => byteAt bytes 0) same
  have read : byteAt ((f.data.drop 1).take 2) 0 = f.byte 1 := by
    simp [CanFrame.byte, byteAt, List.getD_eq_getElem?_getD]
  rw [read, byteAt_cons_zero, UInt8.left_eq_add] at head
  exact absurd head (by decide)

/-- Without the frame in question the probe is received. -/
theorem result_probe (own : f.maskedId = addr.rxId) :
    (recvStream addr (List.replicate 8 0) 8 0
        [probeFirst addr.rxId, probeNext addr.rxId f]).result =
      some (0, [1, 2, 3, 4, 5, 6] ++ [f.byte 1 + 1, 0], 8) := by
  have mine : (probeNext addr.rxId f).frame.maskedId = addr.rxId := (addressed_padded own _).2
  obtain ⟨pci, sn⟩ := cfFrame_pci addr.rxId 1 [f.byte 1 + 1, 0]
  obtain ⟨v, done, length, copied⟩ := receive_probeVars mine rfl pci sn
  rw [recvStream_eq, run_cons, receive_probeFirst own, run_cons, done, run_nil]
  simp only [RecvState.result, length, copied, if_true]
  rfl

/-- With a frame of the right identifier in between it is not, or not with these bytes. -/
theorem result_probe_disturbed (own : f.maskedId = addr.rxId) :
    (recvStream addr (List.replicate 8 0) 8 0
        [probeFirst addr.rxId, ⟨f, 0, 0, 0⟩, probeNext addr.rxId f]).result ≠
      some (0, [1, 2, 3, 4, 5, 6] ++ [f.byte 1 + 1, 0], 8) := by
  rw [recvStream_eq, run_cons, receive_probeFirst own, run_cons]
  have timely : (0 : UInt64) ≤ (probeVars addr.rxId).deadline :=
    (by decide : (0 : UInt64) ≤ 0 + isotpNCrMs)
  by_cases pci : f.pci = pciCf
  · by_cases sn : f.nibble = 1
    · have read : (Arrival.mk f 0 0 0).frame.maskedId = addr.rxId := own
      obtain ⟨v, done, length, copied⟩ := receive_probeVars read rfl pci sn
      rw [done, run_receive_done]
      simp only [RecvState.result, length, copied, if_true]
      intro same
      simp only [Option.some.injEq, Prod.mk.injEq, true_and, and_true] at same
      exact ne_probeNext f (List.append_cancel_left same)
    · have effect : ReceiveEffect addr 8 (probeVars addr.rxId) ⟨f, 0, 0, 0⟩ _ _ :=
        .mismatch own rfl timely pci sn
      rw [effect.eq, run_receive_done]
      intro same
      simp [RecvState.result] at same
  · have effect : ReceiveEffect addr 8 (probeVars addr.rxId) ⟨f, 0, 0, 0⟩ _ _ :=
      .aborted own rfl timely pci
    have mine : (probeNext addr.rxId f).frame.maskedId = addr.rxId := (addressed_padded own _).2
    obtain ⟨cf, -⟩ := cfFrame_pci addr.rxId 1 [f.byte 1 + 1, 0]
    have second : (probeNext addr.rxId f).frame.pci ≠ pciFf := by
      rw [probeNext, cf]
      decide
    have bad : ¬ Delivers 8 (probeNext addr.rxId f).frame := not_delivers cf (by decide)
    rw [effect.eq, run_cons, (ReceiveEffect.ignored mine rfl second bad).eq, run_nil]
    intro same
    cases same

end Witness

/-- **Frames for somebody else are invisible exactly if the mask rejects them.** Of a class of
frames, all that are not addressed can be left out of every stream in time, unless one of
them has a flag set and the low bits of the receiver's identifier. -/
theorem invisible_iff (addr : IsotpAddr) (others : CanFrame → Prop) :
    Invisible addr others ↔ ∀ f, others f → f.maskedId = addr.rxId → Addressed addr f := by
  constructor
  · intro invisible f other own
    by_contra flagged
    have stream : ∀ a ∈ [probeFirst addr.rxId, ⟨f, 0, 0, 0⟩, probeNext addr.rxId f],
        Addressed addr a.frame ∨ others a.frame := by
      simp only [List.forall_mem_cons, List.not_mem_nil, false_implies, implies_true, and_true]
      exact ⟨.inl (addressed_padded own _), .inr other, .inl (addressed_padded own _)⟩
    have timely : AllTimely addr (List.replicate 8 0) 8 0
        [probeFirst addr.rxId, ⟨f, 0, 0, 0⟩, probeNext addr.rxId f] := by
      apply allTimely_of_zero
      simp [probeFirst, probeNext]
    have kept : [probeFirst addr.rxId, ⟨f, 0, 0, 0⟩, probeNext addr.rxId f].filter
        (fun a => Addressed addr a.frame) = [probeFirst addr.rxId, probeNext addr.rxId f] := by
      have first : Addressed addr (probeFirst addr.rxId).frame := addressed_padded own _
      have next : Addressed addr (probeNext addr.rxId f).frame := addressed_padded own _
      simp [first, next, flagged]
    have same := (invisible.receiver (List.replicate 8 0) 8 0 _ stream timely).1
    rw [kept, result_probe own] at same
    exact result_probe_disturbed own same.symm
  · intro strict
    have foreign : ∀ f, Addressed addr f ∨ others f → decide (Addressed addr f) = false →
        f.maskedId ≠ addr.rxId := by
      intro f known out own
      have unaddressed : ¬ Addressed addr f := of_decide_eq_false out
      rcases known with addressed | other
      · exact unaddressed addressed
      · exact unaddressed (strict f other own)
    refine ⟨?_, ?_⟩
    · intro out outCap outLen stream known _
      obtain ⟨states, written⟩ := run_receive_filter addr outCap
        (Settled.loop ⟨out, outLen, false, 0, 0, 1, 0⟩)
        (fun a => Addressed addr a.frame) (fun a member => foreign a.frame (known a member))
      rw [recvStream_eq, recvStream_eq, flowStream_eq, flowStream_eq]
      exact ⟨congrArg RecvState.result states, written⟩
    · intro data first entered stream codes known timely
      exact sendAnswers_filter data first _ codes
        (fun r member => foreign r.frame (known r member)) timely

/-- An extended frame whose low eleven bits are those of the receiver's identifier. -/
def extendedFrame : CanFrame := ⟨0x80000000 ||| 0x7E0, 8, [0x01, 0x3E, 0, 0, 0, 0, 0, 0], rfl⟩

/-- The extended frame is received as a single frame. -/
theorem isotp_recv_sees_extended_frame :
    ¬ ∀ addr : IsotpAddr, addr.rxId ≤ canSffMask → Invisible addr fun _ => True := by
  intro claim
  have invisible := claim ⟨0x7E0, 0x7E8⟩ (by decide)
  have timely : AllTimely ⟨0x7E0, 0x7E8⟩ (List.replicate 8 0) 8 0 [⟨extendedFrame, 0, 0, 0⟩] := by
    apply allTimely_of_zero
    simp
  have same := (invisible.receiver _ 8 0 _ (fun _ _ => .inr trivial) timely).1
  exact absurd same (by decide +kernel)

/-! ## Bytes past the length of a frame -/

/-- The arrivals agree but for the data bytes past the length of the frame. -/
structure AgreeInside (a b : Arrival) : Prop where
  canId : a.frame.canId = b.frame.canId
  canDlc : a.frame.canDlc = b.frame.canDlc
  inside : a.frame.data.take a.frame.canDlc.toNat = b.frame.data.take a.frame.canDlc.toNat
  examined : a.examined = b.examined
  sent : a.sent = b.sent
  armed : a.armed = b.armed

/-- How many data bytes the receiver uses of a frame that arrives while it has these
variables. -/
def bytesUsed (addr : IsotpAddr) (outCap : Nat) (v : RecvVars) (a : Arrival) : Nat :=
  if a.frame.maskedId ≠ addr.rxId then 0
  else if v.receiving then
    if v.deadline < a.examined then 0
    else if a.frame.pci = pciCf ∧ a.frame.nibble = v.nextSn then 1 + v.chunk
    else 1
  else if Delivers outCap a.frame then 1 + a.frame.nibble.toNat
  else if Opens outCap a.frame then 8
  else if a.frame.pci = pciFf then 2
  else 1

/-- No frame of the stream is shorter than what the receiver uses of it. -/
def LongEnough (addr : IsotpAddr) (out : List UInt8) (outCap outLen : Nat)
    (stream : List Arrival) : Prop :=
  ∀ before a after v, stream = before ++ a :: after →
    recvStream addr out outCap outLen before = .loop v →
      bytesUsed addr outCap v a ≤ a.frame.canDlc.toNat

section Inside

variable {addr : IsotpAddr} {outCap : Nat} {v : RecvVars} {a b : Arrival}

theorem AgreeInside.byte (agree : AgreeInside a b) {i : Nat}
    (covered : i < a.frame.canDlc.toNat) : a.frame.byte i = b.frame.byte i := by
  have same := congrArg (fun bytes => byteAt bytes i) agree.inside
  simpa [CanFrame.byte, byteAt, List.getD_eq_getElem?_getD, List.getElem?_take, covered] using same

theorem AgreeInside.slice (agree : AgreeInside a b) {i k : Nat}
    (covered : i + k ≤ a.frame.canDlc.toNat) :
    (a.frame.data.drop i).take k = (b.frame.data.drop i).take k := by
  have cut : ∀ data : List UInt8,
      ((data.take a.frame.canDlc.toNat).drop i).take k = (data.drop i).take k := by
    intro data
    rw [List.drop_take, List.take_take, Nat.min_eq_left (by omega)]
  rw [← cut, ← cut b.frame.data, agree.inside]

theorem AgreeInside.maskedId (agree : AgreeInside a b) : a.frame.maskedId = b.frame.maskedId :=
  congrArg (· &&& canSffMask) agree.canId

/-- The type, the nibble and the length fields, as far as they are covered. -/
theorem AgreeInside.pci (agree : AgreeInside a b) (covered : 1 ≤ a.frame.canDlc.toNat) :
    a.frame.pci = b.frame.pci ∧ a.frame.nibble = b.frame.nibble := by
  have first : a.frame.byte 0 = b.frame.byte 0 := agree.byte covered
  rw [CanFrame.pci, CanFrame.pci, CanFrame.nibble, CanFrame.nibble, first]
  exact ⟨rfl, rfl⟩

theorem AgreeInside.ffLength (agree : AgreeInside a b) (covered : 2 ≤ a.frame.canDlc.toNat) :
    a.frame.ffLength = b.frame.ffLength := by
  rw [CanFrame.ffLength, CanFrame.ffLength, (agree.pci (by omega)).2, agree.byte covered]

theorem AgreeInside.delivers (agree : AgreeInside a b) (covered : 1 ≤ a.frame.canDlc.toNat) :
    Delivers outCap a.frame ↔ Delivers outCap b.frame := by
  obtain ⟨pci, nibble⟩ := agree.pci covered
  rw [Delivers, Delivers, pci, nibble]

theorem AgreeInside.opens (agree : AgreeInside a b) (covered : 2 ≤ a.frame.canDlc.toNat) :
    Opens outCap a.frame ↔ Opens outCap b.frame := by
  rw [Opens, Opens, (agree.pci (by omega)).1, agree.ffLength covered]

theorem covered_of_opens (own : a.frame.maskedId = addr.rxId) (closed : v.receiving = false)
    (opens : Opens outCap a.frame)
    (covered : bytesUsed addr outCap v a ≤ a.frame.canDlc.toNat) : 8 ≤ a.frame.canDlc.toNat := by
  have notSingle : ¬ Delivers outCap a.frame := not_delivers opens.1 (by decide)
  simpa [bytesUsed, own, closed, opens, notSingle] using covered

/-- An accepted first frame is read whole. -/
theorem AgreeInside.opened (agree : AgreeInside a b) (v : RecvVars)
    (covered : 8 ≤ a.frame.canDlc.toNat) : v.opened a.frame = v.opened b.frame := by
  rw [RecvVars.opened, RecvVars.opened, agree.slice covered, agree.ffLength (by omega)]

/-- Arrivals that agree on the bytes in use do the same. -/
theorem receive_agree (agree : AgreeInside a b)
    (covered : bytesUsed addr outCap v a ≤ a.frame.canDlc.toNat) :
    receive addr outCap (.loop v) a = receive addr outCap (.loop v) b := by
  have effect := receive_effect addr outCap v a
  have same : receive addr outCap (.loop v) a =
      ((receive addr outCap (.loop v) a).1, (receive addr outCap (.loop v) a).2) := rfl
  rw [same]
  generalize (receive addr outCap (.loop v) a).1 = s at effect ⊢
  generalize (receive addr outCap (.loop v) a).2 = written at effect ⊢
  symm
  have id := agree.maskedId
  cases effect with
  | foreign other => exact (ReceiveEffect.foreign (id ▸ other)).eq
  | ignored own closed second bad =>
      have notFirst : ¬ Opens outCap a.frame := fun opens => second opens.1
      have one : 1 ≤ a.frame.canDlc.toNat := by
        simpa [bytesUsed, own, closed, bad, notFirst, second] using covered
      rw [(agree.pci one).1] at second
      rw [agree.delivers one] at bad
      exact (ReceiveEffect.ignored (id ▸ own) closed second bad).eq
  | badLength own closed first bad =>
      have notSingle : ¬ Delivers outCap a.frame := not_delivers first (by decide)
      have two : 2 ≤ a.frame.canDlc.toNat := by
        simpa [bytesUsed, own, closed, bad, notSingle, first] using covered
      have effect : ReceiveEffect addr outCap v b _ _ :=
        .badLength (id ▸ own) closed ((agree.pci (by omega)).1 ▸ first)
          (fun opens => bad ((agree.opens two).mpr opens))
      rw [effect.eq, agree.ffLength two]
  | single own closed delivers =>
      have all : 1 + a.frame.nibble.toNat ≤ a.frame.canDlc.toNat := by
        simpa [bytesUsed, own, closed, delivers] using covered
      have one : 1 ≤ a.frame.canDlc.toNat := by omega
      rw [agree.delivers one] at delivers
      have effect : ReceiveEffect addr outCap v b _ _ := .single (id ▸ own) closed delivers
      rw [effect.eq, RecvVars.delivered, RecvVars.delivered, agree.slice all, (agree.pci one).2]
  | unsent own closed opens bad =>
      have eight : 8 ≤ a.frame.canDlc.toNat := covered_of_opens own closed opens covered
      have effect : ReceiveEffect addr outCap v b _ _ :=
        .unsent (id ▸ own) closed ((agree.opens (by omega)).mp opens) (agree.sent ▸ bad)
      rw [effect.eq, agree.opened v eight]
  | opened own closed opens good =>
      have eight : 8 ≤ a.frame.canDlc.toNat := covered_of_opens own closed opens covered
      have effect : ReceiveEffect addr outCap v b _ _ :=
        .opened (id ▸ own) closed ((agree.opens (by omega)).mp opens) (agree.sent ▸ good)
      rw [effect.eq, agree.opened v eight, agree.armed]
  | late own receiving late =>
      exact (ReceiveEffect.late (id ▸ own) receiving (agree.examined ▸ late)).eq
  | aborted own receiving timely other =>
      have one : 1 ≤ a.frame.canDlc.toNat := by
        simpa [bytesUsed, own, receiving, UInt64.not_lt.mpr timely, other] using covered
      exact (ReceiveEffect.aborted (id ▸ own) receiving (agree.examined ▸ timely)
        ((agree.pci one).1 ▸ other)).eq
  | mismatch own receiving timely pci wrong =>
      have one : 1 ≤ a.frame.canDlc.toNat := by
        simpa [bytesUsed, own, receiving, UInt64.not_lt.mpr timely, wrong] using covered
      obtain ⟨type, nibble⟩ := agree.pci one
      exact (ReceiveEffect.mismatch (id ▸ own) receiving (agree.examined ▸ timely) (type ▸ pci)
        (nibble ▸ wrong)).eq
  | continued own receiving timely pci sn more =>
      have all : 1 + v.chunk ≤ a.frame.canDlc.toNat := by
        simpa [bytesUsed, own, receiving, UInt64.not_lt.mpr timely, pci, sn] using covered
      obtain ⟨type, nibble⟩ := agree.pci (by omega)
      have effect : ReceiveEffect addr outCap v b _ _ :=
        .continued (id ▸ own) receiving (agree.examined ▸ timely) (type ▸ pci) (nibble ▸ sn) more
      rw [effect.eq, RecvVars.extended, RecvVars.extended, agree.slice all, agree.armed]
  | completed own receiving timely pci sn whole =>
      have all : 1 + v.chunk ≤ a.frame.canDlc.toNat := by
        simpa [bytesUsed, own, receiving, UInt64.not_lt.mpr timely, pci, sn] using covered
      obtain ⟨type, nibble⟩ := agree.pci (by omega)
      have effect : ReceiveEffect addr outCap v b _ _ :=
        .completed (id ▸ own) receiving (agree.examined ▸ timely) (type ▸ pci) (nibble ▸ sn) whole
      rw [effect.eq, RecvVars.extended, RecvVars.extended, agree.slice all, agree.armed]

/-- Whole streams that agree on the bytes in use. -/
theorem run_receive_agree {first second : List Arrival}
    (agree : List.Forall₂ AgreeInside first second) {s : RecvState} (settled : Settled s)
    (covered : ∀ before a after v, first = before ++ a :: after →
      run (receive addr outCap) s before = .loop v →
        bytesUsed addr outCap v a ≤ a.frame.canDlc.toNat) :
    run (receive addr outCap) s first = run (receive addr outCap) s second ∧
      (trace (receive addr outCap) s first).flatMap Visit.output =
        (trace (receive addr outCap) s second).flatMap Visit.output := by
  induction agree generalizing s with
  | nil => exact ⟨rfl, rfl⟩
  | @cons a b first second here _ ih =>
      have same : receive addr outCap s a = receive addr outCap s b := by
        cases settled with
        | loop v => exact receive_agree here (covered [] a first v rfl rfl)
        | done v code => rfl
      have later : ∀ before x after v, first = before ++ x :: after →
          run (receive addr outCap) (receive addr outCap s a).1 before = .loop v →
            bytesUsed addr outCap v x ≤ x.frame.canDlc.toNat := by
        intro before x after v split standing
        exact covered (a :: before) x after v (by rw [split, List.cons_append]) standing
      obtain ⟨states, written⟩ := ih (settled.receive addr outCap a) later
      rw [run_cons, run_cons, trace_cons, trace_cons, List.flatMap_cons, List.flatMap_cons, visit,
        visit, ← same, states, written]
      exact ⟨rfl, rfl⟩

end Inside

/-- **Bytes past the length of a frame stay out if no frame is too short.** Two streams that
differ in such bytes only give the same return, buffer, length and flow controls, if every
frame of the first is as long as what its protocol fields make the receiver read. -/
theorem isotp_recv_agree (addr : IsotpAddr) (out : List UInt8) (outCap outLen : Nat)
    {first second : List Arrival} (agree : List.Forall₂ AgreeInside first second)
    (long : LongEnough addr out outCap outLen first) :
    (recvStream addr out outCap outLen first).result =
        (recvStream addr out outCap outLen second).result ∧
      flowStream addr out outCap outLen first = flowStream addr out outCap outLen second := by
  have covered : ∀ before a after v, first = before ++ a :: after →
      run (receive addr outCap) (isotpRecv out outLen) before = .loop v →
        bytesUsed addr outCap v a ≤ a.frame.canDlc.toNat := by
    intro before a after v split standing
    exact long before a after v split ((recvStream_eq addr out outCap outLen before).trans standing)
  obtain ⟨states, written⟩ := run_receive_agree agree (.loop _) covered
  rw [recvStream_eq, recvStream_eq, flowStream_eq, flowStream_eq]
  exact ⟨congrArg RecvState.result states, written⟩

/-- A single frame that announces three bytes and has none, next to what the socket left in
its buffer. -/
def shortFrame (leftover : UInt8) : CanFrame :=
  ⟨0x7E0, 1, [0x03, leftover, 0, 0, 0, 0, 0, 0], rfl⟩

/-- A single frame of two bytes whose padding differs. -/
def paddedFrame (padding : UInt8) : CanFrame :=
  ⟨0x7E0, 3, [0x02, 0x3E, 0x00, padding, 0, 0, 0, 0], rfl⟩

theorem isotp_recv_agree_padded :
    (recvStream ⟨0x7E0, 0x7E8⟩ [] 8 0 [⟨paddedFrame 0x55, 0, 0, 0⟩]).result =
        (recvStream ⟨0x7E0, 0x7E8⟩ [] 8 0 [⟨paddedFrame 0xAA, 0, 0, 0⟩]).result ∧
      flowStream ⟨0x7E0, 0x7E8⟩ [] 8 0 [⟨paddedFrame 0x55, 0, 0, 0⟩] =
        flowStream ⟨0x7E0, 0x7E8⟩ [] 8 0 [⟨paddedFrame 0xAA, 0, 0, 0⟩] := by
  refine isotp_recv_agree ⟨0x7E0, 0x7E8⟩ [] 8 0 (.cons ⟨rfl, rfl, rfl, rfl, rfl, rfl⟩ .nil) ?_
  intro before a after v split standing
  cases before with
  | nil =>
      obtain ⟨rfl, rfl⟩ := List.cons.inj split
      have start : v = ⟨[], 0, false, 0, 0, 1, 0⟩ := by cases standing; rfl
      rw [start]
      decide
  | cons x rest =>
      have none := (List.cons.inj split).2
      simp at none

/-- The payload of the short frame is what the buffer held before. -/
theorem isotp_recv_leaks :
    ¬ ∀ (addr : IsotpAddr) (out : List UInt8) (outCap outLen : Nat)
      (first second : List Arrival), (∀ a ∈ first, a.frame.canDlc ≤ 8) →
      List.Forall₂ AgreeInside first second →
      (recvStream addr out outCap outLen first).result =
        (recvStream addr out outCap outLen second).result := by
  intro claim
  have same := claim ⟨0x7E0, 0x7E8⟩ [] 8 0 [⟨shortFrame 0x10, 0, 0, 0⟩]
    [⟨shortFrame 0x20, 0, 0, 0⟩] (by decide) (.cons ⟨rfl, rfl, rfl, rfl, rfl, rfl⟩ .nil)
  exact absurd same (by decide +kernel)

end VecuUds
