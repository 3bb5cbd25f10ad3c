import VecuUds.Isotp.Bus
import VecuUds.Isotp.Reassembly

/-!
# The bounds of a reassembly

What the variables of `isotp_recv` say about each other while a reassembly is open, whatever
was dropped or rejected before it: `total_len` is overwritten by first frames that are
rejected, and a dropped reassembly leaves its variables behind. From the invariant follow the
bounds that no line of the source checks: the remaining length never underflows, every copy
stays within the caller's buffer, and every accepted consecutive frame brings the reassembly
nearer to its end.
-/

namespace VecuUds

open Foundation

/-- The variables of an open reassembly that still lacks bytes. -/
structure OpenVars (outCap : Nat) (v : RecvVars) : Prop where
  first : 6 ≤ v.got
  lacks : v.got < v.totalLen
  fits : v.totalLen ≤ min isotpMaxPayload outCap
  aligned : 7 ∣ v.got - 6
  sn : v.nextSn.toNat = (1 + (v.got - 6) / 7) % 16

/-- An open reassembly has these bounds, whatever the call has consumed before it. -/
theorem Partial.openVars {outCap : Nat} {own : List CanFrame} {v : RecvVars} {ff : CanFrame}
    {cfs : List CanFrame} (opened : Partial outCap own v ff cfs) (more : v.got < v.totalLen) :
    OpenVars outCap v := by
  have got := opened.got
  have room : v.got = 6 + 7 * cfs.length := by omega
  have rest : v.got - 6 = 7 * cfs.length := by omega
  obtain ⟨-, bounded, fits⟩ := opened.range
  refine ⟨by omega, more, Nat.le_min.mpr ⟨bounded, fits⟩, ⟨cfs.length, rest⟩, ?_⟩
  rw [opened.sn, rest, Nat.mul_div_cancel_left _ (by decide)]

/-- The bounds of the variables at each place of a call. -/
def RecvState.Bounded (outCap : Nat) : RecvState → Prop
  | .loop v => v.receiving = true → OpenVars outCap v
  | .sendFc v => OpenVars outCap v
  | .armFf v => OpenVars outCap v
  | .check v _ => OpenVars outCap v
  -- nothing may be lacking any more
  | .armCf v => 6 ≤ v.got ∧ v.got ≤ v.totalLen ∧ v.totalLen ≤ isotpMaxPayload
  | .done _ _ => True

theorem Reassembles.bounded {addr : IsotpAddr} {outCap : Nat} {past : List RecvVisit}
    {s : RecvState} (here : Reassembles addr outCap past s) : s.Bounded outCap := by
  cases here with
  | idle closed _ =>
      intro receiving
      exact absurd receiving (ne_true_of_eq_false closed)
  | loop opened more =>
      intro _
      exact opened.openVars more
  | sendFc opened more => exact opened.openVars more
  | armFf opened more => exact opened.openVars more
  | check _ _ opened more => exact opened.openVars more
  | armCf _ opened =>
      have got := opened.got
      obtain ⟨long, bounded, -⟩ := opened.range
      exact ⟨by omega, by omega, bounded⟩
  | returned => trivial
  | failed => trivial

/-- At every point of every call. -/
theorem bounded_recvRun (addr : IsotpAddr) (out : List UInt8) (outCap outLen : Nat)
    (answers : List IoAnswer) : (recvRun addr out outCap outLen answers).Bounded outCap :=
  (recvRun_reassembles addr out outCap outLen answers).bounded

/-! ## The copies of a call -/

/-- The bytes read are in the frame, the bytes written in a buffer of this capacity. -/
structure Memcpy.Inside (outCap : Nat) (c : Memcpy) : Prop where
  reads : c.size ≤ c.source.length
  writes : c.offset + c.size ≤ outCap

/-- The buffer after a copy, if there was one. -/
def copied (buf : List UInt8) : Option Memcpy → List UInt8
  | none => buf
  | some c => overwrite buf c.offset (c.source.take c.size)

/-- A copy inside the buffer leaves the memory past it as it was. -/
theorem drop_copied {outCap : Nat} (buf : List UInt8) {copy : Option Memcpy}
    (inside : ∀ c, copy = some c → c.Inside outCap) :
    (copied buf copy).drop outCap = buf.drop outCap := by
  cases copy with
  | none => rfl
  | some c =>
      have writes := (inside c rfl).writes
      refine drop_overwrite ?_
      rw [List.length_take]
      omega

/-- A copy from index `k` of a frame on. -/
theorem Memcpy.inside_of_frame {outCap k offset size : Nat} (f : CanFrame) (reads : size ≤ 8 - k)
    (writes : offset + size ≤ outCap) : Memcpy.Inside outCap ⟨offset, f.data.drop k, size⟩ :=
  ⟨by rwa [List.length_drop, f.size], writes⟩

section Copies

variable {addr : IsotpAddr} {outCap : Nat} {s next : RecvState} {a : IoAnswer}

/-- The copies are all that a call does to the buffer. -/
theorem AnswerEffect.out {copy : Option Memcpy}
    (effect : AnswerEffect addr outCap s a copy next) :
    next.vars.out = copied s.vars.out copy := by
  cases effect <;> simp only [RecvState.vars, copied, RecvVars.delivered, RecvVars.opened,
    RecvVars.extended]

/-- Every copy is inside, the one of a consecutive frame by the bounds of the reassembly. -/
theorem AnswerEffect.inside {c : Memcpy} (effect : AnswerEffect addr outCap s a (some c) next)
    (bounded : s.Bounded outCap) : c.Inside outCap := by
  cases effect with
  | @single _ f own closed delivers =>
      obtain ⟨-, -, short, fits⟩ := delivers
      exact Memcpy.inside_of_frame f short (by omega)
  | @opened _ f own closed opens =>
      obtain ⟨-, long, -, fits⟩ := opens
      exact Memcpy.inside_of_frame f (by decide) (by omega)
  | @processed v f t timely pci sn =>
      have vars : OpenVars outCap v := bounded
      have lacks := vars.lacks
      have fits : v.totalLen ≤ outCap := (Nat.le_min.mp vars.fits).2
      have chunk : v.chunk = min 7 (v.totalLen - v.got) := rfl
      exact Memcpy.inside_of_frame f (by omega) (by omega)

end Copies

/-- A call leaves the memory past its buffer as it was. -/
theorem drop_recvRun (addr : IsotpAddr) (out : List UInt8) (outCap outLen : Nat)
    (answers : List IoAnswer) :
    (recvRun addr out outCap outLen answers).vars.out.drop outCap = out.drop outCap := by
  induction answers using List.reverseRecOn with
  | nil => rfl
  | append_singleton past a ih =>
      have here := bounded_recvRun addr out outCap outLen past
      rw [recvRun, run_snoc, ← recvRun]
      generalize recvRun addr out outCap outLen past = s at ih here ⊢
      have effect := answer_effect addr outCap s a
      calc (recvResume addr outCap s a).vars.out.drop outCap
          = (copied s.vars.out (recvCopy addr outCap s a)).drop outCap := by rw [effect.out]
        _ = s.vars.out.drop outCap :=
            drop_copied _ fun c copies => (copies ▸ effect).inside here
        _ = out.drop outCap := ih

/-! ## The consecutive frames of a message -/

/-- A consecutive frame is processed: it is what the open reassembly waits for. -/
def processesCf (v : RecvVisit) : Bool :=
  match v.before, v.after with
  | .check _ _, .armCf _ => true
  | _, _ => false

/-- The consecutive frames that still complete the message. -/
def RecvVars.needs (v : RecvVars) : Nat := (v.totalLen - v.got + 6) / 7

def RecvState.needs : RecvState → Nat
  | .loop v => if v.receiving then v.needs else 0
  | .sendFc v => v.needs
  | .armFf v => v.needs
  | .check v _ => v.needs
  | .armCf v => v.needs
  | .done _ _ => 0

/-- A processed frame is one frame less to wait for. -/
theorem needs_extended {outCap : Nat} {v : RecvVars} (vars : OpenVars outCap v) (f : CanFrame) :
    (v.extended f).needs + 1 = v.needs := by
  have lacks := vars.lacks
  have chunk : v.chunk = min 7 (v.totalLen - v.got) := rfl
  simp only [RecvVars.needs, RecvVars.extended]
  omega

/-- The largest message has 4095 bytes, six of them in its first frame. -/
theorem needs_le_of_first {v : RecvVars} (first : 6 ≤ v.got)
    (bounded : v.totalLen ≤ isotpMaxPayload) : v.needs ≤ 585 := by
  have largest : v.totalLen ≤ 4095 := bounded
  simp only [RecvVars.needs]
  omega

theorem OpenVars.needs_le {outCap : Nat} {v : RecvVars} (vars : OpenVars outCap v) :
    v.needs ≤ 585 :=
  needs_le_of_first vars.first (Nat.le_min.mp vars.fits).1

theorem RecvState.Bounded.needs_le {outCap : Nat} {s : RecvState} (bounded : s.Bounded outCap) :
    s.needs ≤ 585 := by
  cases s with
  | loop v =>
      simp only [RecvState.needs]
      split_ifs with receiving
      · exact (bounded receiving).needs_le
      · exact Nat.zero_le _
  | sendFc v => exact OpenVars.needs_le bounded
  | armFf v => exact OpenVars.needs_le bounded
  | check v f => exact OpenVars.needs_le bounded
  | armCf v => exact needs_le_of_first bounded.1 bounded.2.2
  | done v rc => exact Nat.zero_le _

theorem needs_loop_le (v : RecvVars) (t : UInt64) :
    (RecvState.loop { v with deadline := t }).needs ≤ v.needs := by
  simp only [RecvState.needs]
  split_ifs
  · exact Nat.le_refl _
  · exact Nat.zero_le _

theorem needs_loop_closed {v : RecvVars} (closed : v.receiving = false) :
    (RecvState.loop v).needs = 0 := by
  simp only [RecvState.needs, closed, Bool.false_eq_true, if_false]

/-- One step of the amortised count: a processed frame takes one from what is needed, and
only an accepted first frame adds to it. -/
theorem needs_recvStep {addr : IsotpAddr} {outCap : Nat} {s next : RecvState} {a : IoAnswer}
    {copy : Option Memcpy} (effect : AnswerEffect addr outCap s a copy next)
    (bounded : s.Bounded outCap) :
    next.needs + (processesCf (answered addr s a next)).toNat ≤
      s.needs + 585 * (acceptsFf addr outCap (answered addr s a next)).toNat := by
  cases effect with
  | unasked other =>
      have quiet : processesCf (answered addr s a s) = false := by cases s <;> rfl
      rw [quiet]
      exact Nat.le_add_right _ _
  | taken own receiving =>
      have same : (RecvState.loop _).needs = _ := if_pos receiving
      rw [same]
      exact Nat.le_add_right _ _
  | @badLength v f own closed first bad =>
      have none : (RecvState.loop { v with totalLen := f.ffLength }).needs = 0 :=
        needs_loop_closed closed
      rw [none]
      exact Nat.zero_le _
  | @opened v f own closed opens =>
      have most : (v.opened f).needs ≤ 585 := needs_le_of_first (Nat.le_refl 6) opens.2.2.1
      have accepted : acceptsFf addr outCap
          (answered addr (.loop v) (.received f) (.sendFc (v.opened f))) = true := by
        simp [acceptsFf, answered, own, closed, opens]
      rw [accepted, needs_loop_closed closed]
      exact most
  | armed => exact needs_loop_le _ _
  | processed timely pci sn => exact Nat.le_of_eq (needs_extended bounded _)
  | continued more => exact needs_loop_le _ _
  | interrupted => exact Nat.zero_le _
  | failed => exact Nat.zero_le _
  | single => exact Nat.zero_le _
  | unsent => exact Nat.zero_le _
  | late => exact Nat.zero_le _
  | aborted => exact Nat.zero_le _
  | mismatch => exact Nat.zero_le _
  | completed => exact Nat.zero_le _
  | foreign => exact Nat.le_add_right _ _
  | ignored => exact Nat.le_add_right _ _
  | sent => exact Nat.le_add_right _ _

/-- From any point of a call on, the accepted first frames bound the processed frames. -/
theorem Reassembles.processed_le {addr : IsotpAddr} {outCap : Nat} {past : List RecvVisit}
    {s : RecvState} (here : Reassembles addr outCap past s) (more : List IoAnswer) :
    (run (recvStep addr outCap) s more).needs +
        (trace (recvStep addr outCap) s more).countP processesCf ≤
      s.needs + 585 * (trace (recvStep addr outCap) s more).countP (acceptsFf addr outCap) := by
  refine trace_potential_of_invariant (P := fun s => ∃ past, Reassembles addr outCap past s)
    (recvStep addr outCap) ?_ RecvState.needs processesCf (acceptsFf addr outCap) 585 ?_
    ⟨past, here⟩ more
  · rintro s a ⟨past, here⟩
    exact ⟨_, here.step (answer_effect addr outCap s a)⟩
  · rintro s a ⟨past, here⟩
    exact needs_recvStep (answer_effect addr outCap s a) here.bounded

/-! ## The loop -/

/-- **The invariant of the reassembly loop.** At every iteration of every call, an open
reassembly has its bounds, at the read and when a frame is compared with it. Every copy reads
from the frame and writes into the first `outCap` bytes of the caller's buffer, past which
nothing changes. A processed consecutive frame strictly decreases what the message lacks, and
until the next first frame is accepted there are at most 585 of them. -/
theorem isotp_recv_loop_invariant (addr : IsotpAddr) (out : List UInt8) (outCap outLen : Nat)
    (answers : List IoAnswer) :
    let s := recvRun addr out outCap outLen answers
    (∀ v, s = .loop v → v.receiving = true → OpenVars outCap v) ∧
      (∀ v f, s = .check v f → OpenVars outCap v) ∧
      (∀ a c, recvCopy addr outCap s a = some c → c.Inside outCap) ∧
      (∀ a, (recvResume addr outCap s a).vars.out =
        copied s.vars.out (recvCopy addr outCap s a)) ∧
      s.vars.out.drop outCap = out.drop outCap ∧
      (∀ v f t w, s = .check v f → recvResume addr outCap s (.time t) = .armCf w →
        w.got ≤ w.totalLen ∧ w.totalLen - w.got < v.totalLen - v.got) ∧
      ∀ more, (∀ v ∈ trace (recvStep addr outCap) s more, acceptsFf addr outCap v = false) →
        (trace (recvStep addr outCap) s more).countP processesCf ≤ 585 := by
  intro s
  have here : Reassembles addr outCap (recvTrace addr out outCap outLen answers) s :=
    recvRun_reassembles addr out outCap outLen answers
  have bounded : s.Bounded outCap := here.bounded
  refine ⟨?_, ?_, ?_, fun a => (answer_effect addr outCap s a).out,
    drop_recvRun addr out outCap outLen answers, ?_, ?_⟩
  · intro v place receiving
    rw [place] at bounded
    exact bounded receiving
  · intro v f place
    rw [place] at bounded
    exact bounded
  · intro a c copies
    have effect := answer_effect addr outCap s a
    rw [copies] at effect
    exact effect.inside bounded
  · intro v f t w place processed
    have effect := answer_effect addr outCap s (.time t)
    rw [processed] at effect
    rw [place] at bounded effect
    have vars : OpenVars outCap v := bounded
    have lacks := vars.lacks
    generalize recvCopy addr outCap (.check v f) (.time t) = copy at effect
    cases effect with
    | processed timely pci sn =>
        have chunk : v.chunk = min 7 (v.totalLen - v.got) := rfl
        simp only [RecvVars.extended]
        omega
  · intro more unopened
    have count := here.processed_le more
    have none : (trace (recvStep addr outCap) s more).countP (acceptsFf addr outCap) = 0 := by
      rw [List.countP_eq_zero]
      intro v member
      exact ne_true_of_eq_false (unopened v member)
    have most := bounded.needs_le
    rw [none] at count
    omega

-- outside an open reassembly the variables are bounded by nothing: a dropped reassembly and a
-- rejected first frame leave these
example : ∃ v, recvRun ⟨0x7E0, 0x7E8⟩ (List.replicate 16 0) 16 0
    [.received (ffFrame 0x7E0 [9, 9, 9, 9, 9, 9, 9, 9, 9]), .sent 0, .time 10,
      .received (sfFrame 0x7E0 [5]), .time 11, .received (.padded 0x7E0 [0x1F, 0xFF])] = .loop v ∧
    v.receiving = false ∧ v.got = 6 ∧ v.totalLen = 4095 := ⟨_, rfl, rfl, rfl, rfl⟩

end VecuUds
