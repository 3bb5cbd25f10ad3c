import VecuUds.Foundation.Sequence
import VecuUds.Isotp.Effect

/-!
# What a receiver can return

The receiver keeps four variables across whatever is on the bus: aborted transfers, stray
consecutive frames, malformed lengths, second first frames. `Reassembles` says for every
place of a call what these variables have to do with the frames that the call has consumed:
while a reassembly is open, they are the first frame and the consecutive frames at the very
end of the consumed ones, and the buffer holds the bytes of these frames. One step lemma
extends this to every run, and what a call returns is read off at its end.
-/

namespace VecuUds

open Foundation

/-! ## Blocks of frames -/

/-- Consecutive frames with the sequence numbers 1, 2, 3, ... modulo 16. -/
structure InSequence (cfs : List CanFrame) : Prop where
  pci : ∀ f ∈ cfs, f.pci = pciCf
  numbered : Numbered (fun f : CanFrame => f.nibble.toNat) 16 1 cfs

/-- The frames are one message with this payload: a single frame, or a first frame and as
many consecutive frames as the rest of the payload needs. -/
inductive Carries : List CanFrame → List UInt8 → Prop where
  | single {f : CanFrame} {p : List UInt8} (pci : f.pci = pciSf)
      (length : f.nibble.toNat = p.length) (range : 1 ≤ p.length ∧ p.length ≤ 7)
      (body : (f.data.drop 1).take p.length = p) : Carries [f] p
  | multi {ff : CanFrame} {cfs : List CanFrame} {p : List UInt8} (pci : ff.pci = pciFf)
      (length : ff.ffLength = p.length) (range : 8 ≤ p.length ∧ p.length ≤ isotpMaxPayload)
      (first : ff.data.drop 2 = p.take 6)
      -- the quotient rounded up
      (count : cfs.length = (p.length - 6 + 6) / 7) (sequence : InSequence cfs)
      (rest : (cfs.flatMap fun f => f.data.drop 1).take (p.length - 6) = p.drop 6) :
      Carries (ff :: cfs) p

/-- The payload bytes of a first frame and of consecutive frames, padding included. -/
def carried (ff : CanFrame) (cfs : List CanFrame) : List UInt8 :=
  ff.data.drop 2 ++ cfs.flatMap fun f => f.data.drop 1

theorem InSequence.snoc {cfs : List CanFrame} {f : CanFrame} (sequence : InSequence cfs)
    (pci : f.pci = pciCf) (sn : f.nibble.toNat = (1 + cfs.length) % 16) :
    InSequence (cfs ++ [f]) := by
  refine ⟨?_, sequence.numbered.snoc sn⟩
  intro g member
  rcases List.mem_append.mp member with old | new
  · exact sequence.pci g old
  · rw [List.mem_singleton.mp new]
    exact pci

theorem length_carried (ff : CanFrame) (cfs : List CanFrame) :
    (carried ff cfs).length = 6 + 7 * cfs.length := by
  have seven : ∀ f ∈ cfs, (f.data.drop 1).length = 7 := by
    intro f _
    rw [List.length_drop, f.size]
  rw [carried, List.length_append, List.length_drop, ff.size, List.length_flatMap,
    List.map_congr_left seven, List.map_const', List.sum_replicate_nat]
  omega

theorem carried_snoc (ff : CanFrame) (cfs : List CanFrame) (f : CanFrame) :
    carried ff (cfs ++ [f]) = carried ff cfs ++ f.data.drop 1 := by
  simp only [carried, List.flatMap_append, List.flatMap_singleton, List.append_assoc]

/-- The successor that sender and receiver compute, as a number. -/
theorem toNat_succ_nibble (sn : UInt8) : ((sn + 1) &&& 0x0F).toNat = (sn.toNat + 1) % 16 := by
  have masked : ((sn + 1) &&& 0x0F).toNat = (sn.toNat + 1) % 256 % 16 :=
    Nat.and_two_pow_sub_one_eq_mod _ 4
  rw [masked]
  omega

/-- The buffer of an accepted single frame starts with its payload. -/
theorem take_delivered {outCap : Nat} {v : RecvVars} {f : CanFrame} (delivers : Delivers outCap f) :
    (v.delivered f).out.take (v.delivered f).outLen = (f.data.drop 1).take f.nibble.toNat ∧
      ((f.data.drop 1).take f.nibble.toNat).length = f.nibble.toNat := by
  obtain ⟨-, -, short, -⟩ := delivers
  have length : ((f.data.drop 1).take f.nibble.toNat).length = f.nibble.toNat := by
    rw [List.length_take, List.length_drop, f.size]
    omega
  have copied := take_overwrite_zero v.out ((f.data.drop 1).take f.nibble.toNat)
  rw [length] at copied
  exact ⟨copied, length⟩

theorem carries_delivered {outCap : Nat} {v : RecvVars} {f : CanFrame}
    (delivers : Delivers outCap f) :
    Carries [f] ((v.delivered f).out.take (v.delivered f).outLen) := by
  obtain ⟨copied, length⟩ := take_delivered (v := v) delivers
  obtain ⟨pci, low, high, -⟩ := delivers
  rw [copied]
  exact .single pci length.symm (by omega) (by rw [length])

/-! ## An open reassembly -/

/-- The variables of an open reassembly: it has this first frame and these consecutive
frames, the last ones of the given frames, and the buffer holds what they carry. -/
structure Partial (outCap : Nat) (own : List CanFrame) (v : RecvVars) (ff : CanFrame)
    (cfs : List CanFrame) : Prop where
  tail : ff :: cfs <:+ own
  pci : ff.pci = pciFf
  started : v.receiving = true
  total : ff.ffLength = v.totalLen
  range : 8 ≤ v.totalLen ∧ v.totalLen ≤ isotpMaxPayload ∧ v.totalLen ≤ outCap
  sequence : InSequence cfs
  got : v.got = min v.totalLen (6 + 7 * cfs.length)
  needed : 7 * cfs.length ≤ v.totalLen
  sn : v.nextSn.toNat = (1 + cfs.length) % 16
  copied : v.out.take v.got = (carried ff cfs).take v.got

namespace Partial

variable {outCap : Nat} {own : List CanFrame} {v : RecvVars} {ff : CanFrame}
  {cfs : List CanFrame}

/-- The deadline is no part of it. -/
theorem deadline (opened : Partial outCap own v ff cfs) (deadline : UInt64) :
    Partial outCap own { v with deadline := deadline } ff cfs :=
  ⟨opened.tail, opened.pci, opened.started, opened.total, opened.range, opened.sequence,
    opened.got, opened.needed, opened.sn, opened.copied⟩

/-- An accepted first frame, whatever the variables held before. -/
theorem first (accepted : Opens outCap ff) (own : List CanFrame) (v : RecvVars) :
    Partial outCap (own ++ [ff]) (v.opened ff) ff [] := by
  obtain ⟨pci, range⟩ := accepted
  have six : ((ff.data.drop 2).take 6).length = 6 := by
    rw [List.length_take, List.length_drop, ff.size]
    rfl
  refine ⟨List.suffix_append own [ff], pci, rfl, rfl, range, ⟨by simp, .nil⟩, ?_, Nat.zero_le _,
    rfl, ?_⟩
  · simp only [RecvVars.opened, List.length_nil]
    omega
  · have copied := take_overwrite_zero v.out ((ff.data.drop 2).take 6)
    rw [six] at copied
    simpa only [RecvVars.opened, carried, List.flatMap_nil, List.append_nil] using copied

/-- The next consecutive frame with the expected number. -/
theorem next (opened : Partial outCap own v ff cfs) (more : v.got < v.totalLen) {f : CanFrame}
    (pci : f.pci = pciCf) (sn : f.nibble = v.nextSn) :
    Partial outCap (own ++ [f]) (v.extended f) ff (cfs ++ [f]) := by
  have size : v.chunk = min 7 (v.totalLen - v.got) := rfl
  have got := opened.got
  have room : v.got = 6 + 7 * cfs.length := by omega
  have length : ((f.data.drop 1).take v.chunk).length = v.chunk := by
    rw [List.length_take, List.length_drop, f.size]
    omega
  refine ⟨?_, opened.pci, opened.started, opened.total, opened.range, ?_, ?_, ?_, ?_, ?_⟩
  · obtain ⟨before, split⟩ := opened.tail
    refine ⟨before, ?_⟩
    rw [← split, List.append_assoc]
    rfl
  · exact opened.sequence.snoc pci (by rw [sn, opened.sn])
  · simp only [RecvVars.extended, List.length_append, List.length_singleton]
    omega
  · simp only [RecvVars.extended, List.length_append, List.length_singleton]
    omega
  · simp only [RecvVars.extended]
    rw [toNat_succ_nibble, opened.sn, List.length_append, List.length_singleton]
    omega
  · have inside : v.got ≤ v.out.length := by
      have same := congrArg List.length opened.copied
      rw [List.length_take, List.length_take, length_carried] at same
      omega
    have copied : _ = v.out.take v.got ++ (f.data.drop 1).take v.chunk := take_overwrite inside
    have whole : (carried ff cfs).length = v.got := by rw [length_carried, room]
    rw [length, opened.copied, ← whole, List.take_length] at copied
    rw [carried_snoc]
    simp only [RecvVars.extended]
    rw [← whole, List.take_length_add_append]
    exact copied

/-- A complete reassembly is one message, and the buffer starts with its payload. -/
theorem complete (opened : Partial outCap own v ff cfs) (whole : v.got ≥ v.totalLen) :
    (v.out.take v.totalLen).length = v.totalLen ∧
      Carries (ff :: cfs) (v.out.take v.totalLen) := by
  have got := opened.got
  have needed := opened.needed
  have enough : v.totalLen ≤ 6 + 7 * cfs.length := by omega
  have same : v.got = v.totalLen := by omega
  have copied := opened.copied
  rw [same] at copied
  have length : (v.out.take v.totalLen).length = v.totalLen := by
    rw [copied, List.length_take, length_carried]
    omega
  have six : (ff.data.drop 2).length = 6 := by rw [List.length_drop, ff.size]
  obtain ⟨long, bounded, -⟩ := opened.range
  refine ⟨length, .multi opened.pci ?_ ?_ ?_ ?_ opened.sequence ?_⟩
  · rw [length, opened.total]
  · rw [length]
    exact ⟨long, bounded⟩
  · rw [copied, List.take_take, Nat.min_eq_left (by omega), carried, ← six, List.take_left]
  · rw [length]
    omega
  · rw [length, copied, List.drop_take, carried, ← six, List.drop_left]

end Partial

/-! ## Every place of a call -/

/-- Where a call stands, given what it has consumed so far. -/
inductive Reassembles (addr : IsotpAddr) (outCap : Nat) (past : List RecvVisit) :
    RecvState → Prop where
  -- an idle receiver that has seen an admissible first frame has seen an abort too
  | idle {v : RecvVars} (closed : v.receiving = false)
      (aborted : (∃ f ∈ ownFrames addr past, Opens outCap f) →
        2 ≤ (ownFrames addr past).countP fun f => f.pci ≠ pciCf) :
      Reassembles addr outCap past (.loop v)
  | loop {v : RecvVars} {ff : CanFrame} {cfs : List CanFrame}
      (opened : Partial outCap (ownFrames addr past) v ff cfs) (more : v.got < v.totalLen) :
      Reassembles addr outCap past (.loop v)
  | sendFc {v : RecvVars} {ff : CanFrame}
      (opened : Partial outCap (ownFrames addr past) v ff []) (more : v.got < v.totalLen) :
      Reassembles addr outCap past (.sendFc v)
  | armFf {v : RecvVars} {ff : CanFrame}
      (opened : Partial outCap (ownFrames addr past) v ff []) (more : v.got < v.totalLen) :
      Reassembles addr outCap past (.armFf v)
  | check {v : RecvVars} {f ff : CanFrame} {cfs before : List CanFrame}
      (own : ownFrames addr past = before ++ [f])
      (last : (consumedFrames past).getLast? = some f)
      (opened : Partial outCap before v ff cfs) (more : v.got < v.totalLen) :
      Reassembles addr outCap past (.check v f)
  | armCf {v : RecvVars} {f ff : CanFrame} {cfs : List CanFrame}
      (last : (consumedFrames past).getLast? = some f)
      (opened : Partial outCap (ownFrames addr past) v ff (cfs ++ [f])) :
      Reassembles addr outCap past (.armCf v)
  | returned {v : RecvVars} {before block : List CanFrame}
      (own : ownFrames addr past = before ++ block)
      (last : (consumedFrames past).getLast? = block.getLast?)
      (length : (v.out.take v.outLen).length = v.outLen)
      (carries : Carries block (v.out.take v.outLen)) (fits : v.outLen ≤ outCap) :
      Reassembles addr outCap past (.done v 0)
  | failed {v : RecvVars} {rc : Int} (code : rc ≠ 0) : Reassembles addr outCap past (.done v rc)

section Step

variable {addr : IsotpAddr} {outCap : Nat} {past : List RecvVisit}

/-- An answer that consumes nothing changes nothing about a place that stays the same. -/
theorem Reassembles.quiet {s : RecvState} {visit : RecvVisit}
    (here : Reassembles addr outCap past s) (none : consumedFrames [visit] = []) :
    Reassembles addr outCap (past ++ [visit]) s := by
  have frames : consumedFrames (past ++ [visit]) = consumedFrames past := by
    rw [consumedFrames_snoc, none, List.append_nil]
  have own : ownFrames addr (past ++ [visit]) = ownFrames addr past := by
    rw [ownFrames, frames, ownFrames]
  cases here with
  | idle closed aborted => exact .idle closed (own ▸ aborted)
  | loop opened more => exact .loop (own ▸ opened) more
  | sendFc opened more => exact .sendFc (own ▸ opened) more
  | armFf opened more => exact .armFf (own ▸ opened) more
  | check split last opened more => exact .check (own.trans split) (frames ▸ last) opened more
  | armCf last opened => exact .armCf (frames ▸ last) (own ▸ opened)
  | returned split last length carries fits =>
      exact .returned (own.trans split) (frames ▸ last) length carries fits
  | failed code => exact .failed code

/-- A refused frame leaves the receiver idle. -/
theorem Reassembles.refused {v w : RecvVars} {f : CanFrame} {now : List RecvVisit}
    (here : Reassembles addr outCap past (.loop v)) (closed : v.receiving = false)
    (still : w.receiving = false) (bad : ¬ Opens outCap f)
    (own : ownFrames addr now = ownFrames addr past ++ [f]) :
    Reassembles addr outCap now (.loop w) := by
  cases here with
  | idle _ aborted =>
      refine .idle still ?_
      rintro ⟨g, member, opens⟩
      rw [own, List.mem_append, List.mem_singleton] at member
      rcases member with old | rfl
      · have twice := aborted ⟨g, old, opens⟩
        rw [own, List.countP_append]
        omega
      · exact absurd opens bad
  | loop opened _ => exact absurd opened.started (ne_true_of_eq_false closed)

/-- The first frame of a reassembly, and the frame that aborts it. -/
theorem Reassembles.aborted {v w : RecvVars} {f : CanFrame}
    (here : Reassembles addr outCap past (.check v f)) (closed : w.receiving = false)
    (other : f.pci ≠ pciCf) : Reassembles addr outCap past (.loop w) := by
  cases here with
  | @check _ _ ff cfs before own _ opened _ =>
      refine .idle closed ?_
      intro _
      obtain ⟨earlier, split⟩ := opened.tail
      have first : ff.pci ≠ pciCf := by
        rw [opened.pci]
        decide
      rw [own, ← split]
      simp only [List.countP_append, List.countP_cons, List.countP_nil, ne_eq, first, other,
        not_false_eq_true, decide_true, if_true]
      omega

/-- Every answer, at every place. -/
theorem Reassembles.step {s next : RecvState} {a : IoAnswer} {copy : Option Memcpy}
    (here : Reassembles addr outCap past s) (effect : AnswerEffect addr outCap s a copy next) :
    Reassembles addr outCap (past ++ [answered addr s a next]) next := by
  have still : consumedFrames [answered addr s a next] = [] →
      Reassembles addr outCap (past ++ [answered addr s a next]) s := here.quiet
  cases effect with
  | unasked other =>
      apply still
      rw [answered, ioEvent_of_other other]
      rfl
  | interrupted => exact .failed (by decide)
  | failed => exact .failed (by decide)
  | @foreign v f other =>
      have own : ownFrames addr (past ++ [answered addr (.loop v) (.received f) (.loop v)]) =
          ownFrames addr past := own_foreign other
      cases here with
      | idle closed aborted => exact .idle closed (own ▸ aborted)
      | loop opened more => exact .loop (own ▸ opened) more
  | taken own receiving =>
      cases here with
      | idle closed _ => exact absurd receiving (ne_true_of_eq_false closed)
      | loop opened more => exact .check (own_received own) last_received opened more
  | ignored own closed second bad =>
      exact here.refused closed closed (fun opens => second opens.1) (own_received own)
  | badLength own closed first bad => exact here.refused closed closed bad (own_received own)
  | single own closed delivers =>
      obtain ⟨copied, length⟩ := take_delivered delivers
      refine .returned (own_received own) last_received ?_ (carries_delivered delivers)
        delivers.2.2.2
      rw [copied, length]
      rfl
  | @opened v f own closed opens =>
      have opened := Partial.first opens (ownFrames addr past) v
      rw [← own_received own] at opened
      have more : 6 < f.ffLength := Nat.lt_of_lt_of_le (by decide) opens.2.1
      exact .sendFc opened more
  | unsent => exact .failed (by decide)
  | sent =>
      cases still rfl with
      | sendFc opened more => exact .armFf opened more
  | armed =>
      cases still rfl with
      | armFf opened more => exact .loop (opened.deadline _) more
  | late => exact .failed (by decide)
  | aborted timely other => exact (still rfl).aborted rfl other
  | mismatch => exact .failed (by decide)
  | processed timely pci sn =>
      cases still rfl with
      | check own last opened more =>
          have continued := opened.next more pci sn
          rw [← own] at continued
          exact .armCf last continued
  | continued more =>
      cases still rfl with
      | armCf _ opened => exact .loop (opened.deadline _) more
  | completed whole =>
      cases still rfl with
      | armCf last opened =>
          obtain ⟨length, carries⟩ := opened.complete whole
          obtain ⟨before, own⟩ := opened.tail
          refine .returned own.symm ?_ length carries opened.range.2.2
          rw [last, ← List.cons_append, List.getLast?_concat]

theorem recvRun_reassembles (addr : IsotpAddr) (out : List UInt8) (outCap outLen : Nat)
    (answers : List IoAnswer) :
    Reassembles addr outCap (recvTrace addr out outCap outLen answers)
      (recvRun addr out outCap outLen answers) := by
  refine history_invariant (H := Reassembles addr outCap) (recvStep addr outCap) ?_ ?_ answers
  · intro past s a here
    exact here.step (answer_effect addr outCap s a)
  · refine .idle rfl ?_
    rintro ⟨f, member, -⟩
    cases member

end Step

/-! ## Flow control -/

/-- A first frame is accepted: it is read while no reassembly is open. -/
def acceptsFf (addr : IsotpAddr) (outCap : Nat) (v : RecvVisit) : Bool :=
  match v.before, v.input with
  | .loop vars, .received f => !vars.receiving && f.maskedId = addr.rxId && Opens outCap f
  | _, _ => false

/-- The flow control that a place has still to write. -/
def RecvState.owed (addr : IsotpAddr) : RecvState → List CanFrame
  | .sendFc _ => [fcFrame addr.txId]
  | _ => []

/-- The call has returned another code than 0. -/
def RecvState.failed : RecvState → Bool
  | .done _ rc => rc ≠ 0
  | _ => false

section Flow

variable {addr : IsotpAddr} {outCap : Nat}

/-- A frame that is not accepted as a first frame leaves no flow control to write. -/
private theorem owed_refused {v : RecvVars} {f : CanFrame} {next : RecvState}
    (refused : acceptsFf addr outCap (answered addr (.loop v) (.received f) next) = false)
    (silent : next.owed addr = []) :
    emittedFrames [answered addr (.loop v) (.received f) next] ++ next.owed addr =
      (RecvState.loop v).owed addr ++
        List.replicate
          (acceptsFf addr outCap (answered addr (.loop v) (.received f) next)).toNat
          (fcFrame addr.txId) := by
  rw [refused, silent]
  rfl

/-- What is written and what is then owed is what was owed, and one more flow control if a
first frame was accepted. -/
theorem owed_recvStep {s next : RecvState} {a : IoAnswer} {copy : Option Memcpy}
    (effect : AnswerEffect addr outCap s a copy next) (good : next.failed = false) :
    emittedFrames [answered addr s a next] ++ next.owed addr =
      s.owed addr ++
        List.replicate (acceptsFf addr outCap (answered addr s a next)).toNat
          (fcFrame addr.txId) := by
  cases effect with
  | unasked other =>
      have none : acceptsFf addr outCap (answered addr s a s) = false := by
        cases s <;> cases a <;> first | rfl | cases other
      rw [none, answered, ioEvent_of_other other]
      exact (List.append_nil _).symm
  | interrupted => rfl
  | failed => rfl
  | foreign other => exact owed_refused (by simp [acceptsFf, answered, other]) rfl
  | taken own receiving => exact owed_refused (by simp [acceptsFf, answered, receiving]) rfl
  | ignored own closed second bad =>
      exact owed_refused (by simp [acceptsFf, answered, Opens, second]) rfl
  | badLength own closed first bad => exact owed_refused (by simp [acceptsFf, answered, bad]) rfl
  | @single v f own closed delivers =>
      have refused : ¬ Opens outCap f := fun opens => opens.not_delivers delivers
      exact owed_refused (by simp [acceptsFf, answered, refused]) rfl
  | @opened v f own closed opens =>
      have accepted : acceptsFf addr outCap
          (answered addr (.loop v) (.received f) (.sendFc (v.opened f))) = true := by
        simp [acceptsFf, answered, own, closed, opens]
      rw [accepted]
      rfl
  | unsent bad => cases good
  | _ => rfl

/-- A place that has not failed has written the flow control of every accepted first
frame but the one it owes. -/
theorem flow_recvRun (addr : IsotpAddr) (outCap : Nat) (out : List UInt8) (outLen : Nat)
    (answers : List IoAnswer) (good : (recvRun addr out outCap outLen answers).failed = false) :
    emittedFrames (recvTrace addr out outCap outLen answers) ++
        (recvRun addr out outCap outLen answers).owed addr =
      List.replicate ((recvTrace addr out outCap outLen answers).countP (acceptsFf addr outCap))
        (fcFrame addr.txId) := by
  refine history_invariant (H := fun past s => s.failed = false →
    emittedFrames past ++ s.owed addr =
      List.replicate (past.countP (acceptsFf addr outCap)) (fcFrame addr.txId))
    (recvStep addr outCap) ?_ (fun _ => rfl) answers good
  intro past s a before good
  have sound : s.failed = false := by
    cases s with
    | done v rc => cases a <;> exact good
    | _ => rfl
  have owed := owed_recvStep (answer_effect addr outCap s a) good
  have next : (recvStep addr outCap s a).1 = recvResume addr outCap s a := rfl
  rw [visit_recvStep, next, emittedFrames_snoc, List.append_assoc, owed,
    ← List.append_assoc, before sound, List.countP_append, List.countP_singleton, ite_eq_toNat,
    List.replicate_append_replicate]

end Flow

/-! ## What a call returns -/

/-- **A returned payload is one whole message.** The last frames of its identifier that the
call has consumed carry the payload: one well-formed message, with nothing in between and
nothing after it. The call has written one flow control for every first frame it accepted,
and nothing else. -/
theorem isotp_recv_sound {addr : IsotpAddr} {out : List UInt8} {outCap outLen : Nat}
    {answers : List IoAnswer} {v : RecvVars}
    (success : recvRun addr out outCap outLen answers = .done v 0) :
    (v.out.take v.outLen).length = v.outLen ∧ v.outLen ≤ outCap ∧
      (∃ before block,
        ownFrames addr (recvTrace addr out outCap outLen answers) = before ++ block ∧
          Carries block (v.out.take v.outLen) ∧
          (consumedFrames (recvTrace addr out outCap outLen answers)).getLast? =
            block.getLast?) ∧
      emittedFrames (recvTrace addr out outCap outLen answers) =
        List.replicate
          ((recvTrace addr out outCap outLen answers).countP (acceptsFf addr outCap))
          (fcFrame addr.txId) := by
  have here := recvRun_reassembles addr out outCap outLen answers
  have flow := flow_recvRun addr outCap out outLen answers
  rw [success] at here flow
  have written := flow rfl
  have none : (RecvState.done v 0).owed addr = [] := rfl
  rw [none, List.append_nil] at written
  cases here with
  | returned own last length carries fits =>
      exact ⟨length, fits, ⟨_, _, own, carries, last⟩, written⟩
  | failed code => exact absurd rfl code

/-- A transfer that a single frame aborts, then a whole one around a foreign frame. -/
def abortedThenWhole : List IoAnswer :=
  [.received (ffFrame 0x7E0 [9, 9, 9, 9, 9, 9, 9, 9, 9]), .sent 0, .time 10,
    .received (sfFrame 0x7E0 [5]), .time 11,
    .received (ffFrame 0x7E0 [1, 2, 3, 4, 5, 6, 7, 8]), .sent 0, .time 12,
    .received (cfFrame 0x123 1 [0, 0]), .received (cfFrame 0x7E0 1 [7, 8]), .time 13, .time 14]

theorem isotp_recv_sound_aborted_then_whole : ∃ v,
    recvRun ⟨0x7E0, 0x7E8⟩ (List.replicate 16 0) 16 0 abortedThenWhole = .done v 0 ∧
      v.out.take v.outLen = [1, 2, 3, 4, 5, 6, 7, 8] ∧
      emittedFrames (recvTrace ⟨0x7E0, 0x7E8⟩ (List.replicate 16 0) 16 0 abortedThenWhole) =
        List.replicate
          ((recvTrace ⟨0x7E0, 0x7E8⟩ (List.replicate 16 0) 16 0 abortedThenWhole).countP
            (acceptsFf ⟨0x7E0, 0x7E8⟩ 16))
          (fcFrame 0x7E8) :=
  ⟨_, rfl, rfl, (isotp_recv_sound rfl).2.2.2⟩

end VecuUds
