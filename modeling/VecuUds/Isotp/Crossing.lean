import VecuUds.Isotp.Delivery
import VecuUds.Isotp.Progress

/-!
# Crossing messages

`isotp_send` reads from the bus only while it waits for a flow control, and takes any other
frame of its peer there for an error. Two nodes that call it at the same time, each with a
message for the other, are therefore in each other's way. This is the reason that the ECU
itself runs on the kernel's transport.

The nodes are the two Booleans, and the peer of `i` is `!i`. The bus is lossless and keeps the
order, and other participants may write frames with other identifiers.
-/

namespace VecuUds

open Foundation

/-- Two distinct standard identifiers, and a message for the other side on each. -/
structure CrossingLink where
  id : Bool → UInt32
  payload : Bool → List UInt8
  standard : ∀ i, id i < 0x800
  distinct : ∀ i, id i ≠ id (!i)
  fits : ∀ i, 1 ≤ (payload i).length ∧ (payload i).length ≤ isotpMaxPayload

def CrossingLink.addr (link : CrossingLink) (i : Bool) : IsotpAddr := ⟨link.id (!i), link.id i⟩

/-- The calls in progress, what each node has not read yet, and what it has written. -/
structure Crossing where
  state : Bool → SendState
  queue : Bool → List CanFrame
  written : Bool → List CanFrame

/-- Both nodes have entered `isotp_send`. -/
def Crossing.start (link : CrossingLink) : Crossing where
  state := fun i => isotpSend (link.payload i)
  queue := fun _ => []
  written := fun _ => []

inductive CrossingAction where
  | node (i : Bool) (t : UInt64)
  | foreign (f : CanFrame)

/-- One call of one node. A read from an empty queue and a returned call do nothing. -/
def crossingNode (link : CrossingLink) (s : Crossing) (i : Bool) (t : UInt64) :
    Crossing × BusEvent :=
  let next answer :=
    Function.update s.state i (sendResume (link.addr i) (s.state i) answer)
  match sendCall (link.addr i) (s.state i) with
  | .ret _ => (s, .nothing)
  | .send f =>
      ({ state := next (.sent 0)
         queue := Function.update s.queue (!i) (s.queue (!i) ++ [f])
         written := Function.update s.written i (s.written i ++ [f]) }, .call)
  | .clock => ({ s with state := next (.time t) }, .call)
  | .recv =>
      match s.queue i with
      | [] => (s, .nothing)
      | f :: rest =>
          ({ s with state := next (.received f), queue := Function.update s.queue i rest }, .call)

def crossingStep (link : CrossingLink) (s : Crossing) : CrossingAction → Crossing × BusEvent
  | .node i t => crossingNode link s i t
  | .foreign f =>
      if f.maskedId ≠ link.id false ∧ f.maskedId ≠ link.id true then
        ({ s with queue := fun i => s.queue i ++ [f] }, .frame)
      else (s, .nothing)

def crossingRun (link : CrossingLink) (schedule : List CrossingAction) : Crossing :=
  run (crossingStep link) (.start link) schedule

def crossingTrace (link : CrossingLink) (schedule : List CrossingAction) :
    List (Visit Crossing CrossingAction BusEvent) :=
  trace (crossingStep link) (.start link) schedule

/-! ## Where a node stands -/

/-- What a crossing call returns: success if the message fits one frame. -/
def crossingCode (p : List UInt8) : Int := if p.length ≤ 7 then 0 else -1

/-- The only or the first frame of a message. -/
def openingFrame (id : UInt32) (p : List UInt8) : CanFrame :=
  if p.length ≤ 7 then sfFrame id p else ffFrame id p

/-- A node is in front of its opening frame, waits behind it, or has returned. -/
inductive Standing (p : List UInt8) : SendState → Prop where
  | single (short : p.length ≤ 7) : Standing p (.sf p)
  | first (long : ¬ p.length ≤ 7) : Standing p (.ff p)
  | entering (long : ¬ p.length ≤ 7) : Standing p (.fcEnter p)
  | waiting (long : ¬ p.length ≤ 7) (deadline : UInt64) : Standing p (.fcWait p deadline)
  | foreign (long : ¬ p.length ≤ 7) (deadline : UInt64) : Standing p (.fcForeign p deadline)
  | returned : Standing p (.done (crossingCode p))

/-- The opening frame is written. -/
def SendState.opened : SendState → Bool
  | .sf _ => false
  | .ff _ => false
  | _ => true

def SendState.returned : SendState → Bool
  | .done _ => true
  | _ => false

/-- Nothing but opening frames is written, and a node that has not returned has not read the
one of its peer. -/
structure Crossed (link : CrossingLink) (s : Crossing) : Prop where
  standing : ∀ i, Standing (link.payload i) (s.state i)
  written : ∀ i, s.written i =
    if (s.state i).opened then [openingFrame (link.id i) (link.payload i)] else []
  unread : ∀ i, (s.state i).returned = false →
    framesOn (link.id (!i)) (s.queue i) = s.written (!i)

section Steps

variable {link : CrossingLink} {s : Crossing}

theorem openingFrame_pci (id : UInt32) (p : List UInt8) : (openingFrame id p).pci ≠ pciFc := by
  unfold openingFrame
  split_ifs with short
  · rw [(sfFrame_pci id short).1]
    decide
  · rw [ffFrame_pci]
    decide

theorem openingFrame_own (link : CrossingLink) (i : Bool) (p : List UInt8) :
    (openingFrame (link.id i) p).maskedId = link.id i := by
  have own : ∀ bytes, (CanFrame.padded (link.id i) bytes).maskedId = link.id i := by
    intro bytes
    rw [CanFrame.maskedId_padded, masked_of_standard (link.standard i)]
  unfold openingFrame
  split_ifs
  · exact own _
  · exact own _

theorem crossed_start (link : CrossingLink) : Crossed link (.start link) := by
  have opening : ∀ i, Standing (link.payload i) (isotpSend (link.payload i)) ∧
      (isotpSend (link.payload i)).opened = false := by
    intro i
    obtain ⟨nonempty, bounded⟩ := link.fits i
    rw [isotpSend, if_neg (by omega)]
    split_ifs with short
    · exact ⟨.single short, rfl⟩
    · exact ⟨.first short, rfl⟩
  refine ⟨fun i => (opening i).1, fun i => ?_, fun _ _ => rfl⟩
  simp [Crossing.start, (opening i).2]

/-- A call of a node that writes nothing: its place changes, and its queue may. -/
theorem Crossed.move (crossed : Crossed link s) (i : Bool) {next : SendState}
    {queue : List CanFrame} (standing : Standing (link.payload i) next)
    (opened : next.opened = (s.state i).opened)
    (unread : next.returned = false → framesOn (link.id (!i)) queue = s.written (!i)) :
    Crossed link
      { s with
        state := Function.update s.state i next
        queue := Function.update s.queue i queue } := by
  refine ⟨?_, ?_, ?_⟩
  · intro j
    by_cases same : j = i
    · subst same
      simpa using standing
    · simpa [same] using crossed.standing j
  · intro j
    by_cases same : j = i
    · subst same
      simpa [opened] using crossed.written j
    · simpa [same] using crossed.written j
  · intro j
    by_cases same : j = i
    · subst same
      simpa using unread
    · simpa [same] using crossed.unread j

/-- A call of a node that writes its opening frame. -/
theorem Crossed.opening (crossed : Crossed link s) (i : Bool) {next : SendState}
    (standing : Standing (link.payload i) next) (closed : (s.state i).opened = false)
    (running : (s.state i).returned = false) (opened : next.opened = true) :
    Crossed link
      { state := Function.update s.state i next
        queue := Function.update s.queue (!i)
          (s.queue (!i) ++ [openingFrame (link.id i) (link.payload i)])
        written := Function.update s.written i
          (s.written i ++ [openingFrame (link.id i) (link.payload i)]) } := by
  have own := openingFrame_own link i (link.payload i)
  refine ⟨?_, ?_, ?_⟩
  · intro j
    by_cases same : j = i
    · subst same
      simpa using standing
    · simpa [same] using crossed.standing j
  · intro j
    by_cases same : j = i
    · subst same
      have before := crossed.written j
      simp [closed] at before
      simp [opened, before]
    · simpa [same] using crossed.written j
  · intro j
    by_cases same : j = i
    · subst same
      intro _
      simpa using crossed.unread j running
    · obtain rfl : j = !i := by
        cases i <;> cases j <;> simp_all
      intro waits
      have before := crossed.unread (!i) (by simpa [same] using waits)
      rw [Bool.not_not] at before
      simp only [Bool.not_not, Function.update_self]
      rw [framesOn_snoc_own own, before]

theorem returned_short {p : List UInt8} (short : p.length ≤ 7) : Standing p (.done 0) := by
  have code : crossingCode p = 0 := if_pos short
  exact code ▸ .returned

theorem returned_long {p : List UInt8} (long : ¬ p.length ≤ 7) : Standing p (.done (-1)) := by
  have code : crossingCode p = -1 := if_neg long
  exact code ▸ .returned

/-- What the waiting node does with the next frame. A frame of its peer ends the call. -/
theorem Crossed.read (crossed : Crossed link s) {i : Bool} {deadline : UInt64}
    (here : s.state i = .fcWait (link.payload i) deadline) (long : ¬ (link.payload i).length ≤ 7)
    {f : CanFrame} {rest : List CanFrame} (queue : s.queue i = f :: rest) :
    Crossed link
      { s with
        state := Function.update s.state i
          (sendFlow (link.addr i) (link.payload i) deadline f)
        queue := Function.update s.queue i rest } := by
  have unread := crossed.unread i (by rw [here]; rfl)
  rw [queue] at unread
  by_cases own : f.maskedId = link.id (!i)
  · have opening : f.pci ≠ pciFc := by
      rw [framesOn_cons_own own, crossed.written] at unread
      split_ifs at unread
      rw [(List.cons.inj unread).1]
      exact openingFrame_pci _ _
    have ends : sendFlow (link.addr i) (link.payload i) deadline f = .done (-1) := by
      have mine : ¬ f.maskedId ≠ (link.addr i).rxId := not_not.mpr own
      rw [sendFlow, if_neg mine, if_pos opening]
    rw [ends]
    exact crossed.move i (returned_long long) (by rw [here]; rfl) (fun running => by cases running)
  · rw [framesOn_cons_other own] at unread
    have skips : sendFlow (link.addr i) (link.payload i) deadline f =
        .fcForeign (link.payload i) deadline := if_pos own
    rw [skips]
    exact crossed.move i (.foreign long deadline) (by rw [here]; rfl) (fun _ => unread)

/-- A call of a node that only reads the clock. -/
theorem Crossed.clock (crossed : Crossed link s) (i : Bool) {next : SendState}
    (standing : Standing (link.payload i) next) (opened : next.opened = (s.state i).opened)
    (running : (s.state i).returned = false) :
    Crossed link { s with state := Function.update s.state i next } := by
  have moved := crossed.move i standing opened (fun _ => crossed.unread i running)
  rwa [Function.update_eq_self] at moved

theorem Crossed.node (crossed : Crossed link s) (i : Bool) (t : UInt64) :
    Crossed link (crossingNode link s i t).1 := by
  have standing := crossed.standing i
  generalize here : s.state i = state at standing
  have running : state.returned = false → (s.state i).returned = false := fun runs => here ▸ runs
  cases standing with
  | single short =>
      have opening := crossed.opening i (returned_short short) (by rw [here]; rfl)
        (running rfl) rfl
      have frame : openingFrame (link.id i) (link.payload i) =
          sfFrame (link.addr i).txId (link.payload i) := if_pos short
      rw [frame] at opening
      simpa only [crossingNode, here, sendCall, sendResume] using opening
  | first long =>
      have opening := crossed.opening i (.entering long) (by rw [here]; rfl) (running rfl) rfl
      have frame : openingFrame (link.id i) (link.payload i) =
          ffFrame (link.addr i).txId (link.payload i) := if_neg long
      have written : sendResume (link.addr i) (.ff (link.payload i)) (.sent 0) =
          .fcEnter (link.payload i) := rfl
      rw [frame] at opening
      simpa only [crossingNode, here, sendCall, written] using opening
  | entering long =>
      have next := crossed.clock i (.waiting long (t + isotpNCrMs)) (by rw [here]; rfl)
        (running rfl)
      simpa only [crossingNode, here, sendCall, sendResume] using next
  | waiting long deadline =>
      simp only [crossingNode, here, sendCall, sendResume]
      cases queue : s.queue i with
      | nil => exact crossed
      | cons f rest => exact crossed.read here long queue
  | foreign long deadline =>
      simp only [crossingNode, here, sendCall, sendResume]
      split_ifs
      · exact crossed.clock i (returned_long long) (by rw [here]; rfl) (running rfl)
      · exact crossed.clock i (.waiting long deadline) (by rw [here]; rfl) (running rfl)
  | returned => simpa only [crossingNode, here, sendCall] using crossed

theorem Crossed.step (crossed : Crossed link s) (a : CrossingAction) :
    Crossed link (crossingStep link s a).1 := by
  cases a with
  | node i t => exact crossed.node i t
  | foreign f =>
      simp only [crossingStep]
      split_ifs with other
      · refine ⟨crossed.standing, crossed.written, fun i running => ?_⟩
        have different : f.maskedId ≠ link.id (!i) := by
          cases i
          · exact other.2
          · exact other.1
        rw [framesOn_snoc_other different]
        exact crossed.unread i running
      · exact crossed

theorem crossingRun_crossed (link : CrossingLink) (schedule : List CrossingAction) :
    Crossed link (crossingRun link schedule) :=
  run_invariant (crossingStep link) (fun _ a crossed => crossed.step a) (crossed_start link)
    schedule

/-- A node that can make no call has returned, or waits at an empty queue. -/
theorem Crossed.held (crossed : Crossed link s) {i : Bool}
    (held : (crossingNode link s i 0).2 ≠ .call) :
    (s.state i).returned = true ∨ (s.state i).opened = true ∧ s.queue i = [] := by
  have standing := crossed.standing i
  generalize here : s.state i = state at standing
  cases standing with
  | waiting long deadline =>
      cases queue : s.queue i with
      | nil => exact .inr ⟨rfl, rfl⟩
      | cons f rest => simp [crossingNode, here, sendCall, queue] at held
  | returned => exact .inl rfl
  | _ => simp [crossingNode, here, sendCall] at held

/-- If neither node can make a call, both have returned. -/
theorem Crossed.finished (crossed : Crossed link s)
    (held : ∀ i, (crossingNode link s i 0).2 ≠ .call) (i : Bool) :
    s.state i = .done (crossingCode (link.payload i)) := by
  have opened : ∀ j, (s.state j).opened = true := by
    intro j
    rcases crossed.held (held j) with returned | ⟨opened, -⟩
    · cases state : s.state j with
      | done rc => rfl
      | _ => simp [state, SendState.returned] at returned
    · exact opened
  have returned : (s.state i).returned = true := by
    rcases crossed.held (held i) with returned | ⟨-, silent⟩
    · exact returned
    · -- the opening frame of the peer would still be in the queue
      by_contra running
      have unread := crossed.unread i (Bool.eq_false_iff.mpr running)
      rw [silent, crossed.written, if_pos (opened (!i))] at unread
      cases unread
  have standing := crossed.standing i
  generalize s.state i = state at standing returned
  cases standing with
  | returned => rfl
  | _ => cases returned

end Steps

/-! ## Every call is paid for -/

/-- The calls that a place is still worth, and those it causes. -/
def SendState.crossingWeight : SendState → Nat
  | .sf _ => 3
  | .ff _ => 4
  | .fcEnter _ => 1
  | .fcForeign _ _ => 1
  | _ => 0

def Crossing.share (s : Crossing) (i : Bool) : Nat :=
  (s.state i).crossingWeight + 2 * (s.queue i).length

def Crossing.weight (s : Crossing) : Nat := s.share false + s.share true

theorem Crossing.weight_eq (s : Crossing) (i : Bool) : s.weight = s.share i + s.share (!i) := by
  cases i
  · rfl
  · exact Nat.add_comm _ _

section Shares

variable (s : Crossing) (i : Bool) (next : SendState)

theorem not_ne_self (i : Bool) : (!i) ≠ i := by
  cases i <;> decide

/-- A node that goes on to another place, with another queue. -/
theorem weight_move (queue : List CanFrame) :
    { s with
        state := Function.update s.state i next
        queue := Function.update s.queue i queue : Crossing }.weight + s.share i =
      s.weight + next.crossingWeight + 2 * queue.length := by
  rw [Crossing.weight_eq _ i, Crossing.weight_eq s i]
  simp only [Crossing.share, Function.update_self, Function.update_of_ne (not_ne_self i)]
  omega

/-- A node that writes a frame. -/
theorem weight_open (f : CanFrame) (written : Bool → List CanFrame) :
    { state := Function.update s.state i next
      queue := Function.update s.queue (!i) (s.queue (!i) ++ [f])
      written := written : Crossing }.weight + (s.state i).crossingWeight =
      s.weight + next.crossingWeight + 2 := by
  rw [Crossing.weight_eq _ i, Crossing.weight_eq s i]
  simp only [Crossing.share, Function.update_self, Function.update_of_ne (not_ne_self i),
    Function.update_of_ne (not_ne_self i).symm, List.length_append, List.length_singleton]
  omega

/-- A node that reads the clock. -/
theorem weight_clock :
    { s with state := Function.update s.state i next }.weight + (s.state i).crossingWeight =
      s.weight + next.crossingWeight := by
  have moved := weight_move s i next (s.queue i)
  rw [Function.update_eq_self] at moved
  simp only [Crossing.share] at moved
  omega

end Shares

/-- Every call of a node takes at least one from the weight. -/
theorem weight_crossingNode {link : CrossingLink} {s : Crossing} (crossed : Crossed link s)
    (i : Bool) (t : UInt64) :
    (crossingNode link s i t).1.weight + (crossingNode link s i t).2.isCall.toNat ≤ s.weight := by
  have standing := crossed.standing i
  generalize here : s.state i = state at standing
  cases standing with
  | single short =>
      have paid := weight_open s i (.done 0) (sfFrame (link.addr i).txId (link.payload i))
        (Function.update s.written i
          (s.written i ++ [sfFrame (link.addr i).txId (link.payload i)]))
      simp only [here, SendState.crossingWeight] at paid
      simp only [crossingNode, here, sendCall, sendResume, BusEvent.toNat_isCall]
      omega
  | first long =>
      have paid := weight_open s i (.fcEnter (link.payload i))
        (ffFrame (link.addr i).txId (link.payload i))
        (Function.update s.written i
          (s.written i ++ [ffFrame (link.addr i).txId (link.payload i)]))
      have written : sendResume (link.addr i) (.ff (link.payload i)) (.sent 0) =
          .fcEnter (link.payload i) := rfl
      simp only [here, SendState.crossingWeight] at paid
      simp only [crossingNode, here, sendCall, written, BusEvent.toNat_isCall]
      omega
  | entering long =>
      have paid := weight_clock s i (.fcWait (link.payload i) (t + isotpNCrMs))
      simp only [here, SendState.crossingWeight] at paid
      simp only [crossingNode, here, sendCall, sendResume, BusEvent.toNat_isCall]
      omega
  | waiting long deadline =>
      simp only [crossingNode, here, sendCall, sendResume]
      cases queue : s.queue i with
      | nil => exact Nat.le_refl _
      | cons f rest =>
          have paid := weight_move s i (sendFlow (link.addr i) (link.payload i) deadline f) rest
          have light : (sendFlow (link.addr i) (link.payload i) deadline f).crossingWeight ≤ 1 := by
            unfold sendFlow sendLoop
            split_ifs <;> simp [SendState.crossingWeight]
          have idle : (SendState.fcWait (link.payload i) deadline).crossingWeight = 0 := rfl
          simp only [Crossing.share, here, queue, idle, List.length_cons] at paid
          simp only [BusEvent.toNat_isCall]
          omega
  | foreign long deadline =>
      simp only [crossingNode, here, sendCall, sendResume]
      split_ifs
      · have paid := weight_clock s i (.done (-1))
        simp only [here, SendState.crossingWeight] at paid
        simp only [BusEvent.toNat_isCall]
        omega
      · have paid := weight_clock s i (.fcWait (link.payload i) deadline)
        simp only [here, SendState.crossingWeight] at paid
        simp only [BusEvent.toNat_isCall]
        omega
  | returned =>
      simp only [crossingNode, here, sendCall]
      exact Nat.le_refl _

theorem weight_crossingStep {link : CrossingLink} {s : Crossing} (a : CrossingAction)
    (crossed : Crossed link s) :
    (crossingStep link s a).1.weight + (crossingStep link s a).2.isCall.toNat ≤
      s.weight + 4 * (crossingStep link s a).2.isFrame.toNat := by
  cases a with
  | node i t => exact Nat.le_trans (weight_crossingNode crossed i t) (Nat.le_add_right _ _)
  | foreign f =>
      simp only [crossingStep]
      split_ifs
      · simp only [Crossing.weight, Crossing.share, List.length_append, List.length_singleton]
        change _ + 0 ≤ _ + 4 * 1
        omega
      · exact Nat.le_refl _

theorem weight_crossingStart (link : CrossingLink) : (Crossing.start link).weight ≤ 8 := by
  have opening : ∀ p, (isotpSend p).crossingWeight ≤ 4 := by
    intro p
    unfold isotpSend
    split_ifs <;> simp [SendState.crossingWeight]
  have left := opening (link.payload false)
  have right := opening (link.payload true)
  simp only [Crossing.weight, Crossing.share, Crossing.start, List.length_nil]
  omega

/-- **A long message that crosses another message is lost.** Two nodes call `isotp_send` at the
same time, each with a message of 1 to 4095 bytes for the other. In every interleaving with the
frames of other participants, a message of more than seven bytes gets no further than its first
frame and its call returns -1, while a shorter one is written and its call returns 0. Unless
both calls have returned, one of the nodes can go on, and the number of its calls is bounded. -/
theorem crossing_messages (link : CrossingLink) (schedule : List CrossingAction) :
    let s := crossingRun link schedule
    (∀ i rc, s.state i = .done rc → rc = crossingCode (link.payload i)) ∧
      (∀ i, s.written i <+: [openingFrame (link.id i) (link.payload i)]) ∧
      ((∀ i, s.state i = .done (crossingCode (link.payload i)) ∧
          s.written i = [openingFrame (link.id i) (link.payload i)]) ∨
        ∃ i t, (crossingNode link s i t).2 = .call) ∧
      (crossingTrace link schedule).countP (fun v => v.output.isCall) ≤
        8 + 4 * (crossingTrace link schedule).countP (fun v => v.output.isFrame) := by
  intro s
  have crossed : Crossed link s := crossingRun_crossed link schedule
  refine ⟨?_, ?_, ?_, ?_⟩
  · intro i rc returned
    have standing := crossed.standing i
    rw [returned] at standing
    cases standing
    rfl
  · intro i
    rw [crossed.written i]
    split_ifs
    · exact List.prefix_rfl
    · exact List.nil_prefix
  · by_cases calls : ∃ i, (crossingNode link s i 0).2 = .call
    · obtain ⟨i, call⟩ := calls
      exact .inr ⟨i, 0, call⟩
    · refine .inl fun i => ?_
      have finished := crossed.finished (not_exists.mp calls) i
      refine ⟨finished, ?_⟩
      rw [crossed.written i, finished]
      rfl
  · have paid := trace_potential_of_invariant (P := Crossed link) (crossingStep link)
      (fun _ a crossed => crossed.step a) Crossing.weight (fun v => v.output.isCall)
      (fun v => v.output.isFrame) 4 (fun _ a crossed => weight_crossingStep a crossed)
      (crossed_start link) schedule
    have start := weight_crossingStart link
    exact Nat.le_trans (Nat.le_trans (Nat.le_add_left _ _) paid) (Nat.add_le_add_right start _)

/-- Eight bytes both ways: two first frames, and two failed calls. -/
example :
    let link : CrossingLink :=
      ⟨fun i => if i then 0x7E8 else 0x7E0, fun _ => [1, 2, 3, 4, 5, 6, 7, 8], by decide,
        by decide, by decide⟩
    let s := crossingRun link
      [.node false 0, .node true 0, .node false 5, .node true 5, .node true 6, .node false 6]
    ∀ i, s.state i = .done (-1) ∧ (s.written i).length = 1 := by
  decide +kernel

end VecuUds
