import Mathlib.Data.List.Chain
import VecuUds.Isotp.Stream

/-!
# Deadlines

`isotp_recv` counts the time to the next consecutive frame from the reading that it makes
after the flow control, and again after every consecutive frame. While a reassembly is open,
its deadline belongs to the last frame that it has accepted, whatever foreign frames, dropped
transfers and earlier deadlines came before.

`isotp_send` has one deadline for its wait for flow control. It looks at the clock when a
foreign frame arrives, and only then, so a late frame of its own identifier overruns the wait.
-/

namespace VecuUds

open Foundation

/-! ## The receiver -/

/-- The frame is examined at most one second after the one before it was processed. -/
def Prompt (before next : Arrival) : Prop := next.examined.toNat ≤ before.armed.toNat + 1000

instance (before next : Arrival) : Decidable (Prompt before next) :=
  inferInstanceAs (Decidable (_ ≤ _))

theorem toNat_add_isotpNCrMs_le (t : UInt64) : (t + isotpNCrMs).toNat ≤ t.toNat + 1000 := by
  rw [UInt64.toNat_add]
  exact Nat.mod_le _ _

/-- Where a call stands, with the arrivals of its identifier that it has met. -/
inductive Paced (outCap outLen : Nat) (own : List Arrival) : RecvState → Prop where
  | idle {v : RecvVars} (closed : v.receiving = false) (length : v.outLen = outLen) :
      Paced outCap outLen own (.loop v)
  | opened {v : RecvVars} {ff last : Arrival} {before cfs : List Arrival}
      (split : own = before ++ ff :: cfs)
      (assembled : Partial outCap ((ff :: cfs).map Arrival.frame) v ff.frame
        (cfs.map Arrival.frame))
      (more : v.got < v.totalLen) (chain : (ff :: cfs).IsChain Prompt)
      (newest : (ff :: cfs).getLast? = some last)
      (counted : v.deadline = last.armed + isotpNCrMs) (length : v.outLen = outLen) :
      Paced outCap outLen own (.loop v)
  | returned {v : RecvVars} {before block after : List Arrival}
      (split : own = before ++ block ++ after)
      (carries : Carries (block.map Arrival.frame) (v.out.take v.outLen))
      (chain : block.IsChain Prompt) : Paced outCap outLen own (.done v 0)
  | failed {v : RecvVars} {rc : Int} (code : rc ≠ 0) (length : v.outLen = outLen) :
      Paced outCap outLen own (.done v rc)

section Pace

variable {addr : IsotpAddr} {outCap outLen : Nat} {own : List Arrival}

/-- A frame that the open reassembly accepts is prompt after the last one. -/
private theorem prompt_of_timely {last a : Arrival} {deadline : UInt64}
    (counted : deadline = last.armed + isotpNCrMs) (timely : a.examined ≤ deadline) :
    Prompt last a := by
  have early : a.examined.toNat ≤ deadline.toNat := UInt64.le_iff_toNat_le.mp timely
  rw [counted] at early
  exact Nat.le_trans early (toNat_add_isotpNCrMs_le last.armed)

private theorem isChain_snoc {block : List Arrival} {last a : Arrival}
    (chain : block.IsChain Prompt) (newest : block.getLast? = some last)
    (prompt : Prompt last a) : (block ++ [a]).IsChain Prompt := by
  refine List.isChain_append.mpr ⟨chain, List.isChain_singleton a, ?_⟩
  intro x isLast y isHead
  rw [newest, Option.mem_some_iff] at isLast
  rw [List.head?_cons, Option.mem_some_iff] at isHead
  rw [← isLast, ← isHead]
  exact prompt

/-- A frame of another identifier leaves the call where it stands. -/
theorem Paced.foreign {s : RecvState} (here : Paced outCap outLen own s) {a : Arrival}
    (other : a.frame.maskedId ≠ addr.rxId) :
    Paced outCap outLen own (receive addr outCap s a).1 := by
  cases here with
  | idle closed length =>
      rw [(ReceiveEffect.foreign other).eq]
      exact .idle closed length
  | opened split assembled more chain newest counted length =>
      rw [(ReceiveEffect.foreign other).eq]
      exact .opened split assembled more chain newest counted length
  | returned split carries chain => exact .returned split carries chain
  | failed code length => exact .failed code length

/-- A frame of the receiver's identifier while no reassembly is open. -/
theorem Paced.closed {v : RecvVars} (closed : v.receiving = false) (length : v.outLen = outLen)
    {a : Arrival} (mine : a.frame.maskedId = addr.rxId) :
    Paced outCap outLen (own ++ [a]) (receive addr outCap (.loop v) a).1 := by
  have effect := receive_effect addr outCap v a
  generalize (receive addr outCap (.loop v) a).1 = s at effect
  generalize (receive addr outCap (.loop v) a).2 = written at effect
  cases effect with
  | foreign other => exact absurd mine other
  | ignored _ _ second bad => exact .idle closed length
  | badLength _ _ first bad => exact .idle closed length
  | single _ _ delivers =>
      have split : own ++ [a] = own ++ [a] ++ [] := (List.append_nil _).symm
      exact .returned split (carries_delivered delivers) (List.isChain_singleton a)
  | unsent _ _ opens bad => exact .failed (by decide) length
  | opened _ _ opens good =>
      have started := (Partial.first opens [] v).deadline (a.armed + isotpNCrMs)
      have more : 6 < a.frame.ffLength := Nat.lt_of_lt_of_le (by decide) opens.2.1
      have split : own ++ [a] = own ++ a :: [] := rfl
      exact .opened split started more (List.isChain_singleton a) rfl rfl length
  | late _ receiving => exact absurd receiving (ne_true_of_eq_false closed)
  | aborted _ receiving => exact absurd receiving (ne_true_of_eq_false closed)
  | mismatch _ receiving => exact absurd receiving (ne_true_of_eq_false closed)
  | continued _ receiving => exact absurd receiving (ne_true_of_eq_false closed)
  | completed _ receiving => exact absurd receiving (ne_true_of_eq_false closed)

/-- A frame of the receiver's identifier during a reassembly. -/
theorem Paced.receiving {v : RecvVars} {ff last : Arrival} {before cfs : List Arrival}
    (split : own = before ++ ff :: cfs)
    (assembled : Partial outCap ((ff :: cfs).map Arrival.frame) v ff.frame (cfs.map Arrival.frame))
    (more : v.got < v.totalLen) (chain : (ff :: cfs).IsChain Prompt)
    (newest : (ff :: cfs).getLast? = some last)
    (counted : v.deadline = last.armed + isotpNCrMs) (length : v.outLen = outLen)
    {a : Arrival} (mine : a.frame.maskedId = addr.rxId) :
    Paced outCap outLen (own ++ [a]) (receive addr outCap (.loop v) a).1 := by
  have effect := receive_effect addr outCap v a
  generalize (receive addr outCap (.loop v) a).1 = s at effect
  generalize (receive addr outCap (.loop v) a).2 = written at effect
  have extended : own ++ [a] = before ++ ff :: (cfs ++ [a]) := by
    rw [split, List.append_assoc, List.cons_append]
  have frames : (cfs ++ [a]).map Arrival.frame = cfs.map Arrival.frame ++ [a.frame] :=
    List.map_append
  cases effect with
  | foreign other => exact absurd mine other
  | ignored _ closed => exact absurd assembled.started (ne_true_of_eq_false closed)
  | badLength _ closed => exact absurd assembled.started (ne_true_of_eq_false closed)
  | single _ closed => exact absurd assembled.started (ne_true_of_eq_false closed)
  | unsent _ closed => exact absurd assembled.started (ne_true_of_eq_false closed)
  | opened _ closed => exact absurd assembled.started (ne_true_of_eq_false closed)
  | late => exact .failed (by decide) length
  | aborted => exact .idle rfl length
  | mismatch => exact .failed (by decide) length
  | continued _ _ timely pci sn still =>
      have next := (assembled.next more pci sn).deadline (a.armed + isotpNCrMs)
      have prompt := prompt_of_timely counted timely
      have longer : (ff :: (cfs ++ [a])).IsChain Prompt := isChain_snoc chain newest prompt
      refine .opened extended ?_ still longer ?_ rfl length
      · rw [List.map_cons, frames]
        exact next
      · rw [← List.cons_append, List.getLast?_concat]
  | completed _ _ timely pci sn whole =>
      have next := assembled.next more pci sn
      have prompt := prompt_of_timely counted timely
      have carries := (next.complete whole).2
      have complete : own ++ [a] = before ++ ff :: (cfs ++ [a]) ++ [] := by
        rw [List.append_nil, extended]
      refine .returned complete ?_ (isChain_snoc chain newest prompt)
      rw [List.map_cons, frames]
      exact carries

/-- Every arrival, at every place. -/
theorem Paced.step {stream : List Arrival} {s : RecvState}
    (here : Paced outCap outLen (arrivalsOn addr.rxId stream) s) (a : Arrival) :
    Paced outCap outLen (arrivalsOn addr.rxId (stream ++ [a])) (receive addr outCap s a).1 := by
  by_cases mine : a.frame.maskedId = addr.rxId
  · rw [arrivalsOn_snoc_own mine]
    cases here with
    | idle closed length => exact .closed closed length mine
    | opened split assembled more chain newest counted length =>
        exact .receiving split assembled more chain newest counted length mine
    | returned split carries chain =>
        exact .returned (by rw [split, List.append_assoc]) carries chain
    | failed code length => exact .failed code length
  · rw [arrivalsOn_snoc_other mine]
    exact here.foreign mine

theorem recvStream_paced (addr : IsotpAddr) (out : List UInt8) (outCap outLen : Nat)
    (stream : List Arrival) :
    Paced outCap outLen (arrivalsOn addr.rxId stream)
      (recvStream addr out outCap outLen stream) := by
  induction stream using List.reverseRecOn with
  | nil => exact .idle rfl rfl
  | append_singleton past a ih =>
      rw [recvStream_snoc]
      exact ih.step a

end Pace

/-- **A reassembly keeps the time between its frames.** The consecutive frames of a returned
message were examined within a second of the frame before them, the first one within a second
of the flow control. While a reassembly is open, the first frame of the receiver's identifier
that comes later ends the call with `-1` and the caller's length as it was. -/
theorem isotp_recv_nCr (addr : IsotpAddr) (out : List UInt8) (outCap outLen : Nat)
    (stream : List Arrival) :
    (∀ v, recvStream addr out outCap outLen stream = .done v 0 →
      ∃ before block after, arrivalsOn addr.rxId stream = before ++ block ++ after ∧
        Carries (block.map Arrival.frame) (v.out.take v.outLen) ∧ block.IsChain Prompt) ∧
      ∀ v, recvStream addr out outCap outLen stream = .loop v → v.receiving = true →
        ∃ last, (arrivalsOn addr.rxId stream).getLast? = some last ∧
          ∀ next : Arrival, next.frame.maskedId = addr.rxId → ¬ Prompt last next →
            ∃ v', recvStream addr out outCap outLen (stream ++ [next]) = .done v' (-1) ∧
              v'.outLen = outLen := by
  have here := recvStream_paced addr out outCap outLen stream
  constructor
  · intro v success
    rw [success] at here
    cases here with
    | returned split carries chain => exact ⟨_, _, _, split, carries, chain⟩
    | failed code _ => exact absurd rfl code
  · intro v standing receiving
    rw [standing] at here
    cases here with
    | idle closed _ => exact absurd receiving (ne_true_of_eq_false closed)
    | @opened _ ff last before cfs split assembled more chain newest counted length =>
        refine ⟨last, ?_, ?_⟩
        · rw [split, List.getLast?_append_of_ne_nil _ (List.cons_ne_nil ff cfs), newest]
        · intro next mine slow
          have late : v.deadline < next.examined := by
            apply UInt64.not_le.mp
            intro timely
            exact slow (prompt_of_timely counted timely)
          refine ⟨v, ?_, length⟩
          rw [recvStream_snoc, standing, (ReceiveEffect.late mine receiving late).eq]

/-! ## The wait for flow control -/

/-- A frame that `isotp_send` may read, with the clock reading at which it does. -/
structure Reading where
  frame : CanFrame
  time : UInt64
  deriving DecidableEq

def Reading.answers (r : Reading) : List IoAnswer := [.received r.frame, .time r.time]

/-- The answers to a call of `isotp_send` for a long message: its first frame is written, the
wait is entered, frames arrive, and consecutive frames are written with these codes. -/
def flowAnswers (entered : UInt64) (stream : List Reading) (codes : List Int) : List IoAnswer :=
  .sent 0 :: .time entered :: (stream.flatMap Reading.answers ++ codes.map IoAnswer.sent)

/-- The frame is read after the deadline of a wait that was entered at this reading. -/
def Late (entered : UInt64) (r : Reading) : Prop := entered + isotpNCrMs < r.time

instance (entered : UInt64) (r : Reading) : Decidable (Late entered r) :=
  inferInstanceAs (Decidable (_ < _))

section Wait

variable (addr : IsotpAddr) (data : List UInt8) (entered : UInt64)

/-- The wait reads the frame `r` of the stream, and before it has read these ones. -/
def Reads (stream before : List Reading) (r : Reading) : Prop :=
  before ++ [r] <+: stream ∧
    sendRun addr data (flowAnswers entered before []) = .fcWait data (entered + isotpNCrMs)

/-- The call has written a consecutive frame. -/
def SendsCf (stream : List Reading) (codes : List Int) : Prop :=
  ∃ f ∈ emittedFrames (sendTrace addr data (flowAnswers entered stream codes)), f.pci = pciCf

/-- The wait honours its timeout: no consecutive frame without a flow control in time, and
the first frame that is read too late ends the call. -/
structure HonoursTimeout (stream : List Reading) (codes : List Int) : Prop where
  cleared : SendsCf addr data entered stream codes →
    ∃ before r, Reads addr data entered stream before r ∧ r.frame.maskedId = addr.rxId ∧
      IsFlow fcFsCts r.frame ∧ ¬ Late entered r
  ended : ∀ before r, Reads addr data entered stream before r →
    (∀ x ∈ before, ¬ Late entered x) → Late entered r →
      sendRun addr data (flowAnswers entered (before ++ [r]) []) = .done (-1) ∧
        ¬ SendsCf addr data entered (before ++ [r]) []

/-- The wait goes on after the frame, if it is in time. -/
def Passes (f : CanFrame) : Prop := f.maskedId ≠ addr.rxId ∨ IsFlow fcFsWait f

/-- The first frame read after the deadline is a flow control that the wait accepts, be it
CTS or WAIT. -/
def Overruns (stream : List Reading) : Prop :=
  ∃ before r after, stream = before ++ r :: after ∧
    (∀ x ∈ before, ¬ Late entered x ∧ Passes addr x.frame) ∧
    Late entered r ∧ r.frame.maskedId = addr.rxId ∧
      (IsFlow fcFsCts r.frame ∨ IsFlow fcFsWait r.frame)

end Wait

/-! ### What one frame does to the wait -/

/-- Every outcome of a frame for a call that waits for flow control. -/
inductive WaitEffect (addr : IsotpAddr) (data : List UInt8) (entered : UInt64) (r : Reading) :
    SendState → Prop where
  | foreign (other : r.frame.maskedId ≠ addr.rxId) (timely : ¬ Late entered r) :
      WaitEffect addr data entered r (.fcWait data (entered + isotpNCrMs))
  | timeout (other : r.frame.maskedId ≠ addr.rxId) (late : Late entered r) :
      WaitEffect addr data entered r (.done (-1))
  | cleared (own : r.frame.maskedId = addr.rxId) (cts : IsFlow fcFsCts r.frame) :
      WaitEffect addr data entered r (.cf data 6 1)
  | waits (own : r.frame.maskedId = addr.rxId) (wait : IsFlow fcFsWait r.frame) :
      WaitEffect addr data entered r (.fcWait data (entered + isotpNCrMs))
  | refused (own : r.frame.maskedId = addr.rxId) (other : ¬ IsFlow fcFsCts r.frame)
      (third : ¬ IsFlow fcFsWait r.frame) : WaitEffect addr data entered r (.done (-1))

section WaitRun

variable {addr : IsotpAddr} {data : List UInt8} {entered : UInt64}

theorem waitEffect (addr : IsotpAddr) (entered : UInt64) (long : 8 ≤ data.length) (r : Reading) :
    WaitEffect addr data entered r
      (run (sendStep addr) (.fcWait data (entered + isotpNCrMs)) r.answers) := by
  have more : sendLoop data 6 1 = .cf data 6 1 := if_pos (by omega)
  simp only [Reading.answers, run_cons, run_nil, sendStep, sendResume, sendFlow]
  split_ifs with foreign pci cts wait
  · by_cases late : Late entered r
    · have expired : r.time > entered + isotpNCrMs := late
      simp only [expired, if_true]
      exact .timeout foreign late
    · have young : ¬ r.time > entered + isotpNCrMs := late
      simp only [young, if_false]
      exact .foreign foreign late
  · exact .refused (not_not.mp foreign) (fun cts => pci cts.1) fun wait => pci wait.1
  · rw [more]
    exact .cleared (not_not.mp foreign) ⟨not_not.mp pci, cts⟩
  · exact .waits (not_not.mp foreign) ⟨not_not.mp pci, wait⟩
  · exact .refused (not_not.mp foreign) (fun flow => cts flow.2) fun flow => wait flow.2

/-- Frames and clock readings make no call write anything. -/
theorem emitted_readings (addr : IsotpAddr) (s : SendState) (stream : List Reading) :
    emittedFrames (trace (sendStep addr) s (stream.flatMap Reading.answers)) = [] := by
  induction stream generalizing s with
  | nil => rfl
  | cons r rest ih =>
      have read : emittedFrames [visit (sendStep addr) s (.received r.frame)] = [] := by
        cases s <;> rfl
      have clock : ∀ s, emittedFrames [visit (sendStep addr) s (.time r.time)] = [] := by
        intro s
        cases s <;> rfl
      rw [List.flatMap_cons, trace_append, emittedFrames_append, ih, List.append_nil,
        Reading.answers, trace_cons, trace_cons, trace_nil, ← List.singleton_append,
        emittedFrames_append, read, clock, List.append_nil]

theorem run_sendStep_cf (stream : List Reading) :
    run (sendStep addr) (.cf data 6 1) (stream.flatMap Reading.answers) = .cf data 6 1 := by
  induction stream with
  | nil => rfl
  | cons r rest ih =>
      rw [List.flatMap_cons, run_append]
      exact ih

/-- Return codes of writes mean nothing to a call that waits. -/
theorem emitted_waiting_codes (deadline : UInt64) (codes : List Int) :
    emittedFrames
      (trace (sendStep addr) (.fcWait data deadline) (codes.map IoAnswer.sent)) = [] := by
  induction codes with
  | nil => rfl
  | cons rc rest ih => exact ih

/-- The first frame is out and the wait has begun. -/
theorem sendRun_flowAnswers (long : 8 ≤ data.length) (bounded : data.length ≤ isotpMaxPayload)
    (stream : List Reading) (codes : List Int) :
    sendRun addr data (flowAnswers entered stream codes) =
      run (sendStep addr) (.fcWait data (entered + isotpNCrMs))
        (stream.flatMap Reading.answers ++ codes.map IoAnswer.sent) := by
  rw [sendRun, isotpSend_long long bounded]
  rfl

theorem emitted_flowAnswers (long : 8 ≤ data.length) (bounded : data.length ≤ isotpMaxPayload)
    (stream : List Reading) (codes : List Int) :
    emittedFrames (sendTrace addr data (flowAnswers entered stream codes)) =
      ffFrame addr.txId data ::
        emittedFrames (trace (sendStep addr) (.fcWait data (entered + isotpNCrMs))
          (stream.flatMap Reading.answers ++ codes.map IoAnswer.sent)) := by
  rw [sendTrace, isotpSend_long long bounded]
  rfl

/-- Without a write after the wait there is no consecutive frame. -/
theorem not_sendsCf_readings (long : 8 ≤ data.length) (bounded : data.length ≤ isotpMaxPayload)
    (stream : List Reading) : ¬ SendsCf addr data entered stream [] := by
  rintro ⟨f, member, pci⟩
  rw [emitted_flowAnswers long bounded, List.map_nil, List.append_nil, emitted_readings,
    List.mem_singleton] at member
  rw [member, ffFrame_pci] at pci
  exact absurd pci (by decide)

/-- The wait has read frames that it passes, as long as it goes on in time. -/
theorem waiting_of_passes (long : 8 ≤ data.length) {before : List Reading}
    (passed : ∀ x ∈ before, ¬ Late entered x ∧ Passes addr x.frame) :
    run (sendStep addr) (.fcWait data (entered + isotpNCrMs))
      (before.flatMap Reading.answers) = .fcWait data (entered + isotpNCrMs) := by
  induction before with
  | nil => rfl
  | cons r rest ih =>
      obtain ⟨timely, passes⟩ := passed r List.mem_cons_self
      have later := ih fun x member => passed x (List.mem_cons_of_mem r member)
      rw [List.flatMap_cons, run_append]
      have effect := waitEffect addr entered long r
      generalize run (sendStep addr) _ r.answers = s at effect ⊢
      cases effect with
      | foreign => exact later
      | timeout other late => exact absurd late timely
      | cleared own cts =>
          rcases passes with other | wait
          · exact absurd own other
          · exact absurd (cts.2.symm.trans wait.2) (by decide)
      | waits => exact later
      | refused own other third =>
          rcases passes with foreign | wait
          · exact absurd own foreign
          · exact absurd wait third

/-- The wait goes on only after frames that it passes. -/
theorem passes_of_waiting (long : 8 ≤ data.length) {before : List Reading}
    (waiting : run (sendStep addr) (.fcWait data (entered + isotpNCrMs))
      (before.flatMap Reading.answers) = .fcWait data (entered + isotpNCrMs)) :
    ∀ x ∈ before, Passes addr x.frame := by
  induction before with
  | nil =>
      intro x member
      exact absurd member List.not_mem_nil
  | cons r rest ih =>
      rw [List.flatMap_cons, run_append] at waiting
      have effect := waitEffect addr entered long r
      generalize run (sendStep addr) _ r.answers = s at effect waiting
      cases effect with
      | foreign other => exact List.forall_mem_cons.mpr ⟨.inl other, ih waiting⟩
      | waits own wait => exact List.forall_mem_cons.mpr ⟨.inr wait, ih waiting⟩
      | timeout =>
          rw [(run_sendStep_done _ _ _).1] at waiting
          cases waiting
      | refused =>
          rw [(run_sendStep_done _ _ _).1] at waiting
          cases waiting
      | cleared =>
          rw [run_sendStep_cf] at waiting
          cases waiting

/-- Unless the wait overruns, a consecutive frame follows a flow control in time. -/
theorem cleared_of_sendsCf (long : 8 ≤ data.length) {stream : List Reading} {codes : List Int}
    (safe : ¬ Overruns addr entered stream) {f : CanFrame}
    (member : f ∈ emittedFrames (trace (sendStep addr) (.fcWait data (entered + isotpNCrMs))
      (stream.flatMap Reading.answers ++ codes.map IoAnswer.sent))) :
    ∃ before r, before ++ [r] <+: stream ∧
      run (sendStep addr) (.fcWait data (entered + isotpNCrMs))
        (before.flatMap Reading.answers) = .fcWait data (entered + isotpNCrMs) ∧
      r.frame.maskedId = addr.rxId ∧ IsFlow fcFsCts r.frame ∧ ¬ Late entered r := by
  induction stream with
  | nil =>
      rw [List.flatMap_nil, List.nil_append, emitted_waiting_codes] at member
      exact absurd member List.not_mem_nil
  | cons r rest ih =>
      have quiet : emittedFrames (trace (sendStep addr) (.fcWait data (entered + isotpNCrMs))
          r.answers) = [] := by
        have single := emitted_readings addr (.fcWait data (entered + isotpNCrMs)) [r]
        rwa [List.flatMap_singleton] at single
      rw [List.flatMap_cons, List.append_assoc, trace_append, emittedFrames_append, quiet,
        List.nil_append] at member
      have effect := waitEffect addr entered long r
      generalize next : run (sendStep addr) _ r.answers = s at effect member
      -- a frame that the wait passes in time moves the question to the rest of the stream
      have passed : Passes addr r.frame → ¬ Late entered r →
          s = .fcWait data (entered + isotpNCrMs) →
          ∃ before x, before ++ [x] <+: r :: rest ∧
            run (sendStep addr) (.fcWait data (entered + isotpNCrMs))
              (before.flatMap Reading.answers) = .fcWait data (entered + isotpNCrMs) ∧
            x.frame.maskedId = addr.rxId ∧ IsFlow fcFsCts x.frame ∧ ¬ Late entered x := by
        intro passes timely waiting
        have further : ¬ Overruns addr entered rest := by
          rintro ⟨before, x, after, split, all, late⟩
          exact safe ⟨r :: before, x, after, by rw [split, List.cons_append],
            List.forall_mem_cons.mpr ⟨⟨timely, passes⟩, all⟩, late⟩
        rw [waiting] at member next
        obtain ⟨before, x, ahead, still, found⟩ := ih further member
        refine ⟨r :: before, x, List.cons_prefix_cons.mpr ⟨rfl, ahead⟩, ?_, found⟩
        rw [List.flatMap_cons, run_append, next, still]
      have atOnce : r.frame.maskedId = addr.rxId →
          IsFlow fcFsCts r.frame ∨ IsFlow fcFsWait r.frame → ¬ Late entered r := by
        intro own accepted late
        refine safe ⟨[], r, rest, rfl, ?_, late, own, accepted⟩
        intro x none
        exact absurd none List.not_mem_nil
      cases effect with
      | foreign other timely => exact passed (.inl other) timely rfl
      | waits own wait => exact passed (.inr wait) (atOnce own (.inr wait)) rfl
      | cleared own cts =>
          exact ⟨[], r, List.cons_prefix_cons.mpr ⟨rfl, List.nil_prefix⟩, rfl, own, cts,
            atOnce own (.inl cts)⟩
      | timeout =>
          rw [(run_sendStep_done _ _ _).2] at member
          exact absurd member List.not_mem_nil
      | refused =>
          rw [(run_sendStep_done _ _ _).2] at member
          exact absurd member List.not_mem_nil

/-- **The wait overruns exactly on a flow control that comes too late.** The deadline is
consulted on foreign frames only. So the timeout is honoured unless the first frame read after
it is a CTS or a WAIT with the expected identifier. -/
theorem isotp_send_timeout_iff (addr : IsotpAddr) (data : List UInt8) (long : 8 ≤ data.length)
    (bounded : data.length ≤ isotpMaxPayload) (entered : UInt64) (stream : List Reading)
    (codes : List Int) :
    HonoursTimeout addr data entered stream codes ↔ ¬ Overruns addr entered stream := by
  have standing : ∀ before, sendRun addr data (flowAnswers entered before []) =
      run (sendStep addr) (.fcWait data (entered + isotpNCrMs))
        (before.flatMap Reading.answers) := by
    intro before
    rw [sendRun_flowAnswers long bounded, List.map_nil, List.append_nil]
  have next : ∀ before r, run (sendStep addr) (.fcWait data (entered + isotpNCrMs))
        (before.flatMap Reading.answers) = .fcWait data (entered + isotpNCrMs) →
      sendRun addr data (flowAnswers entered (before ++ [r]) []) =
        run (sendStep addr) (.fcWait data (entered + isotpNCrMs)) r.answers := by
    intro before r waiting
    rw [standing, List.flatMap_append, run_append, waiting, List.flatMap_singleton]
  constructor
  · rintro honours ⟨before, r, after, split, passed, late, own, accepted⟩
    have waiting := waiting_of_passes long passed
    have reads : Reads addr data entered stream before r := by
      refine ⟨⟨after, ?_⟩, (standing before).trans waiting⟩
      rw [split, List.append_assoc, List.singleton_append]
    have ended := (honours.ended before r reads (fun x member => (passed x member).1) late).1
    rw [next before r waiting] at ended
    have effect := waitEffect addr entered long r
    rw [ended] at effect
    cases effect with
    | timeout other => exact other own
    | refused _ other third => exact accepted.elim other third
  · intro safe
    refine ⟨?_, ?_⟩
    · rintro ⟨f, member, pci⟩
      rw [emitted_flowAnswers long bounded, List.mem_cons] at member
      rcases member with rfl | later
      · rw [ffFrame_pci] at pci
        exact absurd pci (by decide)
      · obtain ⟨before, r, ahead, waiting, own, cts, timely⟩ :=
          cleared_of_sendsCf long safe later
        exact ⟨before, r, ⟨ahead, (standing before).trans waiting⟩, own, cts, timely⟩
    · rintro before r ⟨⟨after, split⟩, waiting⟩ timely late
      rw [standing] at waiting
      refine ⟨?_, not_sendsCf_readings long bounded _⟩
      rw [next before r waiting]
      have passes := passes_of_waiting long waiting
      have refuted : r.frame.maskedId = addr.rxId →
          ¬ (IsFlow fcFsCts r.frame ∨ IsFlow fcFsWait r.frame) := by
        intro own accepted
        refine safe ⟨before, r, after, ?_, ?_, late, own, accepted⟩
        · rw [← split, List.append_assoc, List.singleton_append]
        · intro x member
          exact ⟨timely x member, passes x member⟩
      have effect := waitEffect addr entered long r
      generalize run (sendStep addr) _ r.answers = s at effect ⊢
      cases effect with
      | timeout => rfl
      | refused => rfl
      | foreign other young => exact absurd late young
      | cleared own cts => exact absurd (.inl cts) (refuted own)
      | waits own wait => exact absurd (.inr wait) (refuted own)

end WaitRun

/-- A CTS of the tester that comes a second too late. -/
def lateCts : List Reading := [⟨fcFrame 0x7E0, 1001⟩]

/-- A CTS in time. -/
def timelyCts : List Reading := [⟨fcFrame 0x7E0, 1000⟩]

theorem isotp_send_timeout_timelyCts :
    HonoursTimeout ⟨0x7E0, 0x7E8⟩ [1, 2, 3, 4, 5, 6, 7, 8] 0 timelyCts [0] ↔
      ¬ Overruns ⟨0x7E0, 0x7E8⟩ 0 timelyCts :=
  isotp_send_timeout_iff ⟨0x7E0, 0x7E8⟩ [1, 2, 3, 4, 5, 6, 7, 8] (by decide) (by decide) 0
    timelyCts [0]

/-- The late CTS starts the consecutive frames. -/
theorem isotp_send_overruns :
    ¬ ∀ (addr : IsotpAddr) (data : List UInt8) (entered : UInt64) (stream : List Reading)
      (codes : List Int), 8 ≤ data.length → data.length ≤ isotpMaxPayload →
      HonoursTimeout addr data entered stream codes := by
  intro claim
  have honours :=
    claim ⟨0x7E0, 0x7E8⟩ [1, 2, 3, 4, 5, 6, 7, 8] 0 lateCts [0] (by decide) (by decide)
  have reads : Reads ⟨0x7E0, 0x7E8⟩ [1, 2, 3, 4, 5, 6, 7, 8] 0 lateCts [] ⟨fcFrame 0x7E0, 1001⟩ :=
    ⟨List.prefix_refl _, rfl⟩
  have ended := (honours.ended [] _ reads (by simp) (by decide)).1
  exact absurd ended (by decide +kernel)

end VecuUds
