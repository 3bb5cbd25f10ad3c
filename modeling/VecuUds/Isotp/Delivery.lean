import VecuUds.Isotp.Bus

/-!
# What a receiver will return

The receiver sees only the frames with its own identifier, in order. `Feeds` says which
payloads a receiver in a given state will return when it is given such frames: the rest
of the message it is collecting, then stray frames and single frames. A first frame is
not among them, because the sender stops behind it until it is answered; that handshake
is the subject of `Isotp.Handshake`.
-/

namespace VecuUds

open Foundation

/-! ## Standard identifiers -/

/-- A standard identifier is its own masked value. -/
theorem masked_of_standard {id : UInt32} (standard : id < 0x800) : id &&& canSffMask = id := by
  apply UInt32.toNat_inj.mp
  have small : id.toNat < 2 ^ 11 := UInt32.lt_iff_toNat_lt.mp standard
  rw [UInt32.toNat_and]
  exact (Nat.and_two_pow_sub_one_eq_mod id.toNat 11).trans (Nat.mod_eq_of_lt small)

theorem IsotpLink.maskedId_sender (link : IsotpLink) (bytes : List UInt8) :
    (CanFrame.padded link.t bytes).maskedId = link.t := by
  rw [CanFrame.maskedId_padded, masked_of_standard link.standard.1]

theorem IsotpLink.maskedId_receiver (link : IsotpLink) (bytes : List UInt8) :
    (CanFrame.padded link.r bytes).maskedId = link.r := by
  rw [CanFrame.maskedId_padded, masked_of_standard link.standard.2]

/-! ## Streams of frames -/

/-- Frames between two multi-frame messages, and the payloads they carry. -/
inductive Trickle (link : IsotpLink) : List CanFrame → List (List UInt8) → Prop where
  | nil : Trickle link [] []
  | stray {f : CanFrame} {frames : List CanFrame} {payloads : List (List UInt8)}
      (stray : Stray link.outCap f) (rest : Trickle link frames payloads) :
      Trickle link (f :: frames) payloads
  | single {p : List UInt8} {frames : List CanFrame} {payloads : List (List UInt8)}
      (member : p ∈ link.payloads) (short : p.length ≤ 7) (rest : Trickle link frames payloads) :
      Trickle link (sfFrame link.t p :: frames) (p :: payloads)

theorem Trickle.append {link : IsotpLink} {first second : List CanFrame}
    {ps qs : List (List UInt8)} (before : Trickle link first ps) (after : Trickle link second qs) :
    Trickle link (first ++ second) (ps ++ qs) := by
  induction before with
  | nil => exact after
  | stray stray _ ih => exact .stray stray ih
  | single member short _ ih => exact .single member short ih

/-- The variables of a reassembly of `p`: the part up to `got` is in the buffer. -/
structure Collecting (link : IsotpLink) (p : List UInt8) (v : RecvVars) : Prop where
  member : p ∈ link.payloads
  long : 7 < p.length
  started : v.receiving = true
  total : v.totalLen = p.length
  got : v.got ≤ p.length
  copied : v.out.take v.got = p.take v.got
  size : v.out.length = link.outCap
  sn : v.nextSn &&& 0x0F = v.nextSn

/-- A receiver in this state, given these frames, will return these payloads. -/
inductive Feeds (link : IsotpLink) : RecvState → List CanFrame → List (List UInt8) → Prop where
  | idle {v : RecvVars} {frames : List CanFrame} {ps : List (List UInt8)}
      (closed : v.receiving = false) (size : v.out.length = link.outCap)
      (rest : Trickle link frames ps) : Feeds link (.loop v) frames ps
  | armFf {v : RecvVars} {p : List UInt8} {frames : List CanFrame} {ps : List (List UInt8)}
      (collecting : Collecting link p v) (more : v.got < p.length)
      (rest : Trickle link frames ps) :
      Feeds link (.armFf v) (cfFrames link.t p v.got v.nextSn ++ frames) (p :: ps)
  | loop {v : RecvVars} {p : List UInt8} {frames : List CanFrame} {ps : List (List UInt8)}
      (collecting : Collecting link p v) (more : v.got < p.length)
      (rest : Trickle link frames ps) :
      Feeds link (.loop v) (cfFrames link.t p v.got v.nextSn ++ frames) (p :: ps)
  | check {v : RecvVars} {p : List UInt8} {f : CanFrame} {cfs frames : List CanFrame}
      {ps : List (List UInt8)}
      (collecting : Collecting link p v) (more : v.got < p.length)
      (next : cfFrames link.t p v.got v.nextSn = f :: cfs) (rest : Trickle link frames ps) :
      Feeds link (.check v f) (cfs ++ frames) (p :: ps)
  | armCf {v : RecvVars} {p : List UInt8} {frames : List CanFrame} {ps : List (List UInt8)}
      (collecting : Collecting link p v) (rest : Trickle link frames ps) :
      Feeds link (.armCf v) (cfFrames link.t p v.got v.nextSn ++ frames) (p :: ps)
  | done {v : RecvVars} {p : List UInt8} {frames : List CanFrame} {ps : List (List UInt8)}
      (size : v.out.length = link.outCap) (returned : v.out.take v.outLen = p)
      (length : v.outLen = p.length) (rest : Trickle link frames ps) :
      Feeds link (.done v 0) frames (p :: ps)

theorem Feeds.append {link : IsotpLink} {state : RecvState} {first second : List CanFrame}
    {ps qs : List (List UInt8)} (before : Feeds link state first ps)
    (after : Trickle link second qs) : Feeds link state (first ++ second) (ps ++ qs) := by
  cases before with
  | idle closed size rest => exact .idle closed size (rest.append after)
  | armFf collecting more rest =>
      rw [List.append_assoc]
      exact .armFf collecting more (rest.append after)
  | loop collecting more rest =>
      rw [List.append_assoc]
      exact .loop collecting more (rest.append after)
  | check collecting more next rest =>
      rw [List.append_assoc]
      exact .check collecting more next (rest.append after)
  | armCf collecting rest =>
      rw [List.append_assoc]
      exact .armCf collecting (rest.append after)
  | done size returned length rest => exact .done size returned length (rest.append after)

/-- A receiver at its read with no frame on the way has nothing left to return. -/
theorem Feeds.drained {link : IsotpLink} {v : RecvVars} {stream : List CanFrame}
    {ps : List (List UInt8)} (feeds : Feeds link (.loop v) stream ps) (empty : stream = []) :
    v.receiving = false ∧ v.out.length = link.outCap ∧ ps = [] := by
  cases feeds with
  | idle closed size rest =>
      subst empty
      cases rest
      exact ⟨closed, size, rfl⟩
  | loop collecting more rest =>
      rw [cfFrames_of_lt more] at empty
      cases empty

/-! ## One call of the receiver -/

section Receiver

variable {link : IsotpLink} {state : RecvState} {stream frames : List CanFrame}
  {ps : List (List UInt8)}

theorem Collecting.deadline {p : List UInt8} {v : RecvVars} (collecting : Collecting link p v)
    (deadline : UInt64) : Collecting link p { v with deadline := deadline } :=
  ⟨collecting.member, collecting.long, collecting.started, collecting.total, collecting.got,
    collecting.copied, collecting.size, collecting.sn⟩

/-- A first frame opens the reassembly of its payload. -/
theorem Collecting.first {p : List UInt8} (member : p ∈ link.payloads) (long : 7 < p.length)
    {v : RecvVars} (size : v.out.length = link.outCap) :
    Collecting link p { v with
      out := overwrite v.out 0 (p.take 6), totalLen := p.length, got := 6, nextSn := 1,
      receiving := true } := by
  have fits : p.length ≤ link.outCap := (link.fits p member).2.2
  have six : (p.take 6).length = 6 := by simp; omega
  refine ⟨member, long, rfl, rfl, by simp only; omega, ?_, ?_,
    (by decide : (1 : UInt8) &&& 0x0F = 1)⟩
  · have copied := take_overwrite_zero v.out (p.take 6)
    rwa [six] at copied
  · rw [length_overwrite (by omega)]
    exact size

/-- The next consecutive frame extends the collected part by its chunk. -/
theorem Collecting.next {p : List UInt8} {v : RecvVars} (collecting : Collecting link p v)
    (more : v.got < p.length) :
    Collecting link p { v with
      out := overwrite v.out v.got ((p.drop v.got).take (sendChunk p v.got))
      got := v.got + sendChunk p v.got
      nextSn := (v.nextSn + 1) &&& 0x0F } := by
  have fits : p.length ≤ link.outCap := (link.fits p collecting.member).2.2
  have size := collecting.size
  have chunk : sendChunk p v.got ≤ p.length - v.got := by rw [sendChunk_eq]; omega
  have length : ((p.drop v.got).take (sendChunk p v.got)).length = sendChunk p v.got := by
    rw [List.length_take, List.length_drop]
    omega
  refine ⟨collecting.member, collecting.long, collecting.started, collecting.total,
    by simp only; omega, ?_, ?_, ?_⟩
  · have inside : v.got ≤ v.out.length := by omega
    have copied : _ = v.out.take v.got ++ (p.drop v.got).take (sendChunk p v.got) :=
      take_overwrite inside
    rw [length, collecting.copied] at copied
    rw [List.take_add (l := p)]
    exact copied
  · simp only
    rw [length_overwrite (by omega)]
    exact size
  · simp only [UInt8.and_assoc, UInt8.and_self]

/-- A frame with the receiver's identifier. -/
theorem Feeds.frame {v : RecvVars} {f : CanFrame} (feeds : Feeds link (.loop v) stream ps)
    (own : f.maskedId = link.t) (split : stream = f :: frames) :
    Feeds link (recvResume link.receiverAddr link.outCap (.loop v) (.received f)) frames ps := by
  have mine : ¬ f.maskedId ≠ link.receiverAddr.rxId := by
    intro other
    exact other own
  simp only [recvResume, if_neg mine]
  cases feeds with
  | idle closed size rest =>
      simp only [closed, Bool.false_eq_true, if_false]
      subst split
      cases rest with
      | stray stray rest =>
          obtain ⟨total, idle⟩ := recvIdle_stray stray v
          rw [idle]
          exact .idle closed size rest
      | @single p _ _ member short rest =>
          have nonempty : 1 ≤ p.length := (link.fits p member).1
          have fits : p.length ≤ link.outCap := (link.fits p member).2.2
          rw [recvIdle_sfFrame v nonempty short fits]
          refine .done ?_ (take_overwrite_zero v.out p) rfl rest
          simp only
          rw [length_overwrite (by rw [size]; simpa using fits)]
          exact size
  | loop collecting more rest =>
      simp only [collecting.started, if_true]
      rw [cfFrames_of_lt more, List.cons_append] at split
      obtain ⟨rfl, rfl⟩ := List.cons.inj split
      exact .check collecting more (cfFrames_of_lt more) rest

/-- A clock reading within the deadline it is compared with. -/
theorem Feeds.time (feeds : Feeds link state stream ps) (t : UInt64)
    (timely : state.timely t = true) (reads : recvCall link.receiverAddr state = .clock) :
    Feeds link (recvResume link.receiverAddr link.outCap state (.time t)) stream ps := by
  cases feeds with
  | idle => cases reads
  | loop => cases reads
  | done => cases reads
  | armFf collecting more rest => exact .loop (collecting.deadline _) more rest
  | @check v p f cfs frames ps collecting more next rest =>
      have within : ¬ t > v.deadline := UInt64.not_lt.mpr (of_decide_eq_true timely)
      rw [cfFrames_of_lt more] at next
      obtain ⟨rfl, rfl⟩ := List.cons.inj next
      simp only [recvResume, if_neg within, recvReceiving_cfFrame collecting.total collecting.sn]
      exact .armCf (collecting.next more) rest
  | @armCf v p frames ps collecting rest =>
      have total := collecting.total
      simp only [recvResume]
      by_cases complete : v.got ≥ v.totalLen
      · have whole : v.got = p.length := by
          have got := collecting.got
          omega
        rw [if_pos complete, cfFrames_of_ge (by omega), List.nil_append]
        have copied := collecting.copied
        rw [whole, List.take_length] at copied
        refine .done collecting.size ?_ total rest
        simp only [total, copied]
      · rw [if_neg complete]
        exact .loop (collecting.deadline _) (by simp only; omega) rest

/-- A return hands over the first payload, and the next call starts. -/
theorem Feeds.return {v : RecvVars} {rc : Int} (feeds : Feeds link (.done v rc) stream ps) :
    rc = 0 ∧ ∃ p rest, ps = p :: rest ∧ (v.out.take v.outLen, v.outLen) = (p, p.length) ∧
      Feeds link (isotpRecv v.out v.outLen) stream rest := by
  cases feeds with
  | done size returned length rest =>
      exact ⟨rfl, _, _, rfl, Prod.ext returned length, .idle rfl size rest⟩

end Receiver

end VecuUds
