import VecuUds.Isotp.Reassembly

/-!
# Streams of arriving frames

A call of `isotp_recv` reads frames one after the other. Between two reads it makes at most
three calls: a clock reading to compare with the deadline, a write of a flow control, and a
clock reading to count the next deadline from. An `Arrival` is a frame with the answers that
these calls will get; an answer that is not asked for is not used.

`ReceiveEffect` lists all that one arrival can do to a call that stands at its read. The
list is exact in both directions, so that two runs can be compared arrival by arrival.
-/

namespace VecuUds

open Foundation

/-- A frame, with the clock reading at which it is compared with the deadline, the return
code of a write of flow control, and the clock reading after it has been processed. -/
structure Arrival where
  frame : CanFrame
  examined : UInt64
  sent : Int
  armed : UInt64
  deriving DecidableEq

/-- The answers that an arrival stands for. -/
def Arrival.answers (a : Arrival) : List IoAnswer :=
  [.received a.frame, .time a.examined, .sent a.sent, .time a.armed]

/-- Every outcome of an arrival for a call at its read: where the call stands afterwards and
what it has written meanwhile. -/
inductive ReceiveEffect (addr : IsotpAddr) (outCap : Nat) (v : RecvVars) (a : Arrival) :
    RecvState → List CanFrame → Prop where
  | foreign (other : a.frame.maskedId ≠ addr.rxId) : ReceiveEffect addr outCap v a (.loop v) []
  | ignored (own : a.frame.maskedId = addr.rxId) (closed : v.receiving = false)
      (second : a.frame.pci ≠ pciFf) (bad : ¬ Delivers outCap a.frame) :
      ReceiveEffect addr outCap v a (.loop v) []
  | badLength (own : a.frame.maskedId = addr.rxId) (closed : v.receiving = false)
      (first : a.frame.pci = pciFf) (bad : ¬ Opens outCap a.frame) :
      ReceiveEffect addr outCap v a (.loop { v with totalLen := a.frame.ffLength }) []
  | single (own : a.frame.maskedId = addr.rxId) (closed : v.receiving = false)
      (delivers : Delivers outCap a.frame) :
      ReceiveEffect addr outCap v a (.done (v.delivered a.frame) 0) []
  | unsent (own : a.frame.maskedId = addr.rxId) (closed : v.receiving = false)
      (opens : Opens outCap a.frame) (bad : a.sent ≠ 0) :
      ReceiveEffect addr outCap v a (.done (v.opened a.frame) (-1)) []
  | opened (own : a.frame.maskedId = addr.rxId) (closed : v.receiving = false)
      (opens : Opens outCap a.frame) (good : a.sent = 0) :
      ReceiveEffect addr outCap v a (.loop ((v.opened a.frame).armedAt a.armed))
        [fcFrame addr.txId]
  | late (own : a.frame.maskedId = addr.rxId) (receiving : v.receiving = true)
      (late : v.deadline < a.examined) : ReceiveEffect addr outCap v a (.done v (-1)) []
  | aborted (own : a.frame.maskedId = addr.rxId) (receiving : v.receiving = true)
      (timely : a.examined ≤ v.deadline) (other : a.frame.pci ≠ pciCf) :
      ReceiveEffect addr outCap v a (.loop { v with receiving := false }) []
  | mismatch (own : a.frame.maskedId = addr.rxId) (receiving : v.receiving = true)
      (timely : a.examined ≤ v.deadline) (pci : a.frame.pci = pciCf)
      (wrong : a.frame.nibble ≠ v.nextSn) : ReceiveEffect addr outCap v a (.done v (-1)) []
  | continued (own : a.frame.maskedId = addr.rxId) (receiving : v.receiving = true)
      (timely : a.examined ≤ v.deadline) (pci : a.frame.pci = pciCf)
      (sn : a.frame.nibble = v.nextSn) (more : v.got + v.chunk < v.totalLen) :
      ReceiveEffect addr outCap v a (.loop ((v.extended a.frame).armedAt a.armed)) []
  | completed (own : a.frame.maskedId = addr.rxId) (receiving : v.receiving = true)
      (timely : a.examined ≤ v.deadline) (pci : a.frame.pci = pciCf)
      (sn : a.frame.nibble = v.nextSn) (whole : v.totalLen ≤ v.got + v.chunk) :
      ReceiveEffect addr outCap v a
        (.done { (v.extended a.frame).armedAt a.armed with outLen := v.totalLen } 0) []

/-- One arrival: where the call stands after it and what it has written meanwhile. -/
def receive (addr : IsotpAddr) (outCap : Nat) (s : RecvState) (a : Arrival) :
    RecvState × List CanFrame :=
  (run (recvStep addr outCap) s a.answers,
    emittedFrames (trace (recvStep addr outCap) s a.answers))

section Effect

variable {addr : IsotpAddr} {outCap : Nat} {v : RecvVars} {a : Arrival}

/-- Some outcome applies. -/
theorem exists_receiveEffect (addr : IsotpAddr) (outCap : Nat) (v : RecvVars) (a : Arrival) :
    ∃ s written, ReceiveEffect addr outCap v a s written := by
  by_cases own : a.frame.maskedId = addr.rxId
  swap
  · exact ⟨_, _, .foreign own⟩
  cases receiving : v.receiving with
  | false =>
      by_cases first : a.frame.pci = pciFf
      · by_cases opens : Opens outCap a.frame
        · by_cases good : a.sent = 0
          · exact ⟨_, _, .opened own receiving opens good⟩
          · exact ⟨_, _, .unsent own receiving opens good⟩
        · exact ⟨_, _, .badLength own receiving first opens⟩
      · by_cases delivers : Delivers outCap a.frame
        · exact ⟨_, _, .single own receiving delivers⟩
        · exact ⟨_, _, .ignored own receiving first delivers⟩
  | true =>
      by_cases late : v.deadline < a.examined
      · exact ⟨_, _, .late own receiving late⟩
      have timely : a.examined ≤ v.deadline := UInt64.not_lt.mp late
      by_cases pci : a.frame.pci = pciCf
      · by_cases sn : a.frame.nibble = v.nextSn
        · by_cases more : v.got + v.chunk < v.totalLen
          · exact ⟨_, _, .continued own receiving timely pci sn more⟩
          · exact ⟨_, _, .completed own receiving timely pci sn (Nat.le_of_not_lt more)⟩
        · exact ⟨_, _, .mismatch own receiving timely pci sn⟩
      · exact ⟨_, _, .aborted own receiving timely pci⟩

/-- What is left of an arrival once its frame is read. -/
private def settle (addr : IsotpAddr) (outCap : Nat) (a : Arrival) (s : RecvState) :
    RecvState × List CanFrame :=
  (run (recvStep addr outCap) s [.time a.examined, .sent a.sent, .time a.armed],
    emittedFrames
      (trace (recvStep addr outCap) s [.time a.examined, .sent a.sent, .time a.armed]))

private theorem receive_eq_settle (v : RecvVars) (a : Arrival) :
    receive addr outCap (.loop v) a =
      settle addr outCap a (recvResume addr outCap (.loop v) (.received a.frame)) := rfl

private theorem settle_sendFc_good (v : RecvVars) (good : a.sent = 0) :
    settle addr outCap a (.sendFc v) = (.loop (v.armedAt a.armed), [fcFrame addr.txId]) := by
  simp only [settle, good]
  rfl

private theorem settle_sendFc_bad (v : RecvVars) (bad : a.sent ≠ 0) :
    settle addr outCap a (.sendFc v) = (.done v (-1), []) := by
  simp [settle, recvStep, recvResume, recvCall, ioEvent, bad, emittedFrames, visit]

private theorem settle_check_late {f : CanFrame} (late : v.deadline < a.examined) :
    settle addr outCap a (.check v f) = (.done v (-1), []) := by
  simp [settle, recvStep, recvResume, recvCall, ioEvent, late, emittedFrames, visit]

/-- A frame examined in time: what `recvReceiving` makes of it, and the reading after it. -/
private theorem settle_check_timely {f : CanFrame} (timely : a.examined ≤ v.deadline) :
    settle addr outCap a (.check v f) =
      (run (recvStep addr outCap) (recvReceiving v f) [.sent a.sent, .time a.armed],
        emittedFrames
          (trace (recvStep addr outCap) (recvReceiving v f) [.sent a.sent, .time a.armed])) := by
  have young : ¬ a.examined > v.deadline := UInt64.not_lt.mpr timely
  simp [settle, recvStep, recvResume, recvCall, ioEvent, young, emittedFrames, visit]

/-- An outcome that applies is the outcome. -/
theorem ReceiveEffect.eq {s : RecvState} {written : List CanFrame}
    (effect : ReceiveEffect addr outCap v a s written) :
    receive addr outCap (.loop v) a = (s, written) := by
  rw [receive_eq_settle]
  cases effect with
  | foreign other =>
      have next : recvResume addr outCap (.loop v) (.received a.frame) = .loop v := if_pos other
      rw [next]
      rfl
  | ignored own closed second bad =>
      rw [recvResume_idle own closed, recvIdle_ignored second bad]
      rfl
  | badLength own closed first bad =>
      rw [recvResume_idle own closed, recvIdle_badLength first bad]
      rfl
  | single own closed delivers =>
      rw [recvResume_idle own closed, recvIdle_delivers delivers]
      rfl
  | unsent own closed opens bad =>
      rw [recvResume_idle own closed, recvIdle_opens opens, settle_sendFc_bad _ bad]
  | opened own closed opens good =>
      rw [recvResume_idle own closed, recvIdle_opens opens, settle_sendFc_good _ good]
  | late own receiving late => rw [recvResume_receiving own receiving, settle_check_late late]
  | aborted own receiving timely other =>
      have dropped : recvReceiving v a.frame = .loop { v with receiving := false } := if_pos other
      rw [recvResume_receiving own receiving, settle_check_timely timely, dropped]
      rfl
  | mismatch own receiving timely pci wrong =>
      rw [recvResume_receiving own receiving, settle_check_timely timely,
        recvReceiving_mismatch pci wrong]
      rfl
  | continued own receiving timely pci sn more =>
      rw [recvResume_receiving own receiving, settle_check_timely timely,
        recvReceiving_accepted pci sn]
      have open' : ¬ (v.extended a.frame).got ≥ (v.extended a.frame).totalLen :=
        Nat.not_le.mpr more
      simp only [run_cons, run_nil, trace_cons, trace_nil, recvStep, recvResume, open', if_false]
      rfl
  | completed own receiving timely pci sn whole =>
      rw [recvResume_receiving own receiving, settle_check_timely timely,
        recvReceiving_accepted pci sn]
      have full : (v.extended a.frame).got ≥ (v.extended a.frame).totalLen := whole
      simp only [run_cons, run_nil, trace_cons, trace_nil, recvStep, recvResume, full, if_true]
      rfl

/-- The outcome is the one that applies. -/
theorem receive_effect (addr : IsotpAddr) (outCap : Nat) (v : RecvVars) (a : Arrival) :
    ReceiveEffect addr outCap v a (receive addr outCap (.loop v) a).1
      (receive addr outCap (.loop v) a).2 := by
  obtain ⟨s, written, effect⟩ := exists_receiveEffect addr outCap v a
  rw [effect.eq]
  exact effect

end Effect

/-- The places where a call can stand between two arrivals. Only an interrupted read makes
it return 1. -/
inductive Settled : RecvState → Prop where
  | loop (v : RecvVars) : Settled (.loop v)
  | done (v : RecvVars) {rc : Int} (code : rc ≠ 1) : Settled (.done v rc)

theorem Settled.receive {s : RecvState} (settled : Settled s) (addr : IsotpAddr) (outCap : Nat)
    (a : Arrival) : Settled (receive addr outCap s a).1 := by
  cases settled with
  | loop v =>
      have effect := receive_effect addr outCap v a
      generalize (VecuUds.receive addr outCap (.loop v) a).1 = s at effect ⊢
      generalize (VecuUds.receive addr outCap (.loop v) a).2 = written at effect
      cases effect with
      | single => exact .done _ (by decide)
      | unsent => exact .done _ (by decide)
      | late => exact .done _ (by decide)
      | mismatch => exact .done _ (by decide)
      | completed => exact .done _ (by decide)
      | _ => exact .loop _
  | done v code => exact .done v code

/-- A frame of another identifier leaves no trace. -/
theorem Settled.foreign {s : RecvState} (settled : Settled s) {addr : IsotpAddr} (outCap : Nat)
    {a : Arrival} (other : a.frame.maskedId ≠ addr.rxId) :
    VecuUds.receive addr outCap s a = (s, []) := by
  cases settled with
  | loop v => exact (ReceiveEffect.foreign other).eq
  | done v code => rfl

/-! ## Whole streams -/

/-- The call of `isotp_recv` that meets this stream. -/
def recvStream (addr : IsotpAddr) (out : List UInt8) (outCap outLen : Nat)
    (stream : List Arrival) : RecvState :=
  recvRun addr out outCap outLen (stream.flatMap Arrival.answers)

/-- The flow controls that it writes. -/
def flowStream (addr : IsotpAddr) (out : List UInt8) (outCap outLen : Nat)
    (stream : List Arrival) : List CanFrame :=
  emittedFrames (recvTrace addr out outCap outLen (stream.flatMap Arrival.answers))

/-- The arrivals with this identifier. -/
def arrivalsOn (id : UInt32) (stream : List Arrival) : List Arrival :=
  stream.filter fun a => a.frame.maskedId = id

section Stream

variable {addr : IsotpAddr} {outCap : Nat}

theorem run_answers (s : RecvState) (stream : List Arrival) :
    run (recvStep addr outCap) s (stream.flatMap Arrival.answers) =
      run (receive addr outCap) s stream :=
  run_flatMap (fun _ _ => rfl) s stream

theorem emitted_answers (s : RecvState) (stream : List Arrival) :
    emittedFrames (trace (recvStep addr outCap) s (stream.flatMap Arrival.answers)) =
      (trace (receive addr outCap) s stream).flatMap Visit.output :=
  observe_flatMap rfl emittedFrames_append (fun _ _ => rfl) s stream

/-- A call that meets a stream is the run of `receive` over it. -/
theorem recvStream_eq (addr : IsotpAddr) (out : List UInt8) (outCap outLen : Nat)
    (stream : List Arrival) :
    recvStream addr out outCap outLen stream =
      run (receive addr outCap) (isotpRecv out outLen) stream :=
  run_answers _ stream

theorem flowStream_eq (addr : IsotpAddr) (out : List UInt8) (outCap outLen : Nat)
    (stream : List Arrival) :
    flowStream addr out outCap outLen stream =
      (trace (receive addr outCap) (isotpRecv out outLen) stream).flatMap Visit.output :=
  emitted_answers _ stream

theorem recvStream_snoc (addr : IsotpAddr) (out : List UInt8) (outCap outLen : Nat)
    (stream : List Arrival) (a : Arrival) :
    recvStream addr out outCap outLen (stream ++ [a]) =
      (receive addr outCap (recvStream addr out outCap outLen stream) a).1 := by
  rw [recvStream_eq, recvStream_eq, run_snoc]

theorem arrivalsOn_snoc_own {id : UInt32} {a : Arrival} (own : a.frame.maskedId = id)
    (stream : List Arrival) : arrivalsOn id (stream ++ [a]) = arrivalsOn id stream ++ [a] := by
  simp [arrivalsOn, own]

theorem arrivalsOn_snoc_other {id : UInt32} {a : Arrival} (other : a.frame.maskedId ≠ id)
    (stream : List Arrival) : arrivalsOn id (stream ++ [a]) = arrivalsOn id stream := by
  simp [arrivalsOn, other]

/-- A call that has returned meets no further frame. -/
theorem run_receive_done (v : RecvVars) (rc : Int) (stream : List Arrival) :
    run (receive addr outCap) (.done v rc) stream = .done v rc := by
  induction stream with
  | nil => rfl
  | cons a rest ih => exact ih

/-- Frames of other identifiers can be left out of a stream. -/
theorem run_receive_filter (addr : IsotpAddr) (outCap : Nat) {s : RecvState}
    (settled : Settled s) (keep : Arrival → Bool) {stream : List Arrival}
    (dropped : ∀ a ∈ stream, keep a = false → a.frame.maskedId ≠ addr.rxId) :
    run (receive addr outCap) s (stream.filter keep) = run (receive addr outCap) s stream ∧
      (trace (receive addr outCap) s (stream.filter keep)).flatMap Visit.output =
        (trace (receive addr outCap) s stream).flatMap Visit.output := by
  refine run_filter (P := Settled) ?_ keep ?_ settled
  · intro s a settled
    exact settled.receive addr outCap a
  · intro a member out s settled
    exact settled.foreign outCap (dropped a member out)

end Stream

end VecuUds
