import VecuUds.Isotp.Bus

/-!
# Every call is paid for

A potential of the whole system. A frame on its way to the receiver is worth five calls:
the read, and the longest reaction to it. A frame on its way to the sender is worth two,
a frame not yet written one more than a written one. Every call of a node takes at least
one from the potential, and only a frame of another participant adds to it, so the nodes
cannot make calls for ever without help from outside.
-/

namespace VecuUds

open Foundation

/-- The loop over consecutive frames from an offset on, with the return behind it. -/
def loopWeight (link : IsotpLink) (p : List UInt8) (offset : Nat) (sn : UInt8) : Nat :=
  6 * (cfFrames link.t p offset sn).length + 1

def SendState.weight (link : IsotpLink) : SendState → Nat
  | .sf _ => 7
  | .ff p => loopWeight link p 6 1 + 7
  | .fcEnter p => loopWeight link p 6 1 + 1
  | .fcWait p _ => loopWeight link p 6 1
  | .fcForeign p _ => loopWeight link p 6 1 + 1
  | .cf p offset sn => loopWeight link p (offset + sendChunk p offset) ((sn + 1) &&& 0x0F) + 6
  | .done _ => 1

def RecvState.weight : RecvState → Nat
  | .loop _ => 0
  | .sendFc _ => 4
  | .armFf _ => 1
  | .check _ _ => 3
  | .armCf _ => 2
  | .done _ _ => 1

def SenderNode.weight (link : IsotpLink) (n : SenderNode) : Nat :=
  (n.pending.map fun p => (isotpSend p).weight link + 1).sum +
    (n.current.map (SendState.weight link)).getD 0

def Bus.weight (link : IsotpLink) (s : Bus) : Nat :=
  s.sender.weight link + s.receiver.current.weight + 5 * s.toReceiver.length +
    2 * s.toSender.length

/-- The events that are calls of a node. -/
def BusEvent.isCall (e : BusEvent) : Bool := e = .call

/-- The events that are frames of another participant. -/
def BusEvent.isFrame (e : BusEvent) : Bool := e = .frame

theorem BusEvent.toNat_isCall : BusEvent.call.isCall.toNat = 1 := rfl

variable (link : IsotpLink)

/-! ## The sender -/

section Node

variable (pending : List (List UInt8)) (results : List Int)

theorem SenderNode.weight_none : (SenderNode.mk pending none results).weight link =
    (pending.map fun p => (isotpSend p).weight link + 1).sum := rfl

theorem SenderNode.weight_some (state : SendState) :
    (SenderNode.mk pending (some state) results).weight link =
      (pending.map fun p => (isotpSend p).weight link + 1).sum + state.weight link := rfl

end Node

theorem weight_sendLoop (p : List UInt8) (offset : Nat) (sn : UInt8) :
    (sendLoop p offset sn).weight link = loopWeight link p offset sn := by
  unfold sendLoop loopWeight
  split_ifs with inside
  · rw [cfFrames_of_lt inside]
    simp only [SendState.weight, loopWeight, List.length_cons]
    omega
  · rw [cfFrames_of_ge (Nat.le_of_not_lt inside)]
    rfl

theorem weight_sendFlow (p : List UInt8) (deadline : UInt64) (f : CanFrame) :
    (sendFlow link.senderAddr p deadline f).weight link ≤ loopWeight link p 6 1 + 1 := by
  have positive : 1 ≤ loopWeight link p 6 1 := Nat.le_add_left _ _
  unfold sendFlow
  split_ifs
  · exact Nat.le_refl _
  · simp only [SendState.weight]; omega
  · rw [weight_sendLoop]; omega
  · simp only [SendState.weight]; omega
  · simp only [SendState.weight]; omega

/-- The effect of each kind of call on the weight of the sender's place. -/
theorem weight_sendResume (state : SendState) :
    match sendCall link.senderAddr state with
    | .send _ => (sendResume link.senderAddr state (.sent 0)).weight link + 6 ≤ state.weight link
    | .clock => ∀ t,
        (sendResume link.senderAddr state (.time t)).weight link + 1 ≤ state.weight link
    | .recv => ∀ f,
        (sendResume link.senderAddr state (.received f)).weight link ≤ state.weight link + 1
    | .ret _ => 1 ≤ state.weight link := by
  cases state with
  | sf p => exact Nat.le_refl _
  | ff p => exact Nat.le_refl _
  | fcEnter p =>
      intro t
      exact Nat.le_refl _
  | fcWait p deadline =>
      intro f
      exact weight_sendFlow link p deadline f
  | fcForeign p deadline =>
      intro t
      have positive : 1 ≤ loopWeight link p 6 1 := Nat.le_add_left _ _
      simp only [sendResume]
      split_ifs <;> simp only [SendState.weight] <;> omega
  | cf p offset sn =>
      have next := weight_sendLoop link p (offset + sendChunk p offset) ((sn + 1) &&& 0x0F)
      exact Nat.add_le_add_right (Nat.le_of_eq next) 6
  | done rc => exact Nat.le_refl _

theorem weight_senderStep (s : Bus) (t : UInt64) :
    (senderStep link s t).1.weight link + (senderStep link s t).2.isCall.toNat ≤
      s.weight link := by
  obtain ⟨⟨pending, current, results⟩, receiver, toSender, toReceiver⟩ := s
  cases current with
  | none =>
      cases pending with
      | nil => exact Nat.le_refl _
      | cons p pending =>
          simp only [senderStep, Bus.weight, SenderNode.weight_none, SenderNode.weight_some,
            BusEvent.toNat_isCall, List.map_cons, List.sum_cons]
          omega
  | some state =>
      have effect := weight_sendResume link state
      simp only [senderStep]
      cases call : sendCall link.senderAddr state with
      | send f =>
          simp only [call] at effect
          simp only [Bus.weight, SenderNode.weight_some, BusEvent.toNat_isCall,
            List.length_append, List.length_singleton]
          omega
      | clock =>
          simp only [call] at effect
          have reading := effect t
          simp only
          split_ifs
          · simp only [Bus.weight, SenderNode.weight_some, BusEvent.toNat_isCall]
            omega
          · exact Nat.le_refl _
      | recv =>
          simp only [call] at effect
          cases toSender with
          | nil => exact Nat.le_refl _
          | cons f rest =>
              have reading := effect f
              simp only [Bus.weight, SenderNode.weight_some, BusEvent.toNat_isCall,
                List.length_cons]
              omega
      | ret rc =>
          simp only [call] at effect
          simp only [Bus.weight, SenderNode.weight_some, SenderNode.weight_none,
            BusEvent.toNat_isCall]
          omega

/-! ## The receiver -/

theorem weight_recvIdle (outCap : Nat) (v : RecvVars) (f : CanFrame) :
    (recvIdle outCap v f).weight ≤ 4 := by
  simp only [recvIdle]
  split_ifs <;> simp [RecvState.weight]

theorem weight_recvReceiving (v : RecvVars) (f : CanFrame) : (recvReceiving v f).weight ≤ 2 := by
  simp only [recvReceiving]
  split_ifs <;> simp [RecvState.weight]

/-- The effect of each kind of call on the weight of the receiver's place. -/
theorem weight_recvResume (addr : IsotpAddr) (outCap : Nat) (state : RecvState) :
    match recvCall addr state with
    | .send _ => (recvResume addr outCap state (.sent 0)).weight + 3 ≤ state.weight
    | .clock => ∀ t, (recvResume addr outCap state (.time t)).weight + 1 ≤ state.weight
    | .recv => ∀ f, (recvResume addr outCap state (.received f)).weight ≤ state.weight + 4
    | .ret _ => 1 ≤ state.weight := by
  cases state with
  | loop v =>
      intro f
      simp only [recvResume]
      split_ifs
      · exact Nat.zero_le _
      · exact (by decide : 3 ≤ 4)
      · exact weight_recvIdle outCap v f
  | sendFc v => exact Nat.le_refl _
  | armFf v =>
      intro t
      exact Nat.le_refl _
  | check v f =>
      intro t
      simp only [recvResume]
      split_ifs
      · exact (by decide : 2 ≤ 3)
      · exact Nat.add_le_add_right (weight_recvReceiving v f) 1
  | armCf v =>
      intro t
      simp only [recvResume]
      split_ifs <;> simp [RecvState.weight]
  | done v rc => exact Nat.le_refl _

theorem weight_receiverStep (s : Bus) (t : UInt64) :
    (receiverStep link s t).1.weight link + (receiverStep link s t).2.isCall.toNat ≤
      s.weight link := by
  obtain ⟨sender, ⟨state, results, written⟩, toSender, toReceiver⟩ := s
  have effect := weight_recvResume link.receiverAddr link.outCap state
  simp only [receiverStep]
  cases call : recvCall link.receiverAddr state with
  | send f =>
      simp only [call] at effect
      simp only [Bus.weight, BusEvent.toNat_isCall, List.length_append, List.length_singleton]
      omega
  | clock =>
      simp only [call] at effect
      have reading := effect t
      simp only
      split_ifs
      · simp only [Bus.weight, BusEvent.toNat_isCall]
        omega
      · exact Nat.le_refl _
  | recv =>
      simp only [call] at effect
      cases toReceiver with
      | nil => exact Nat.le_refl _
      | cons f rest =>
          have reading := effect f
          simp only [Bus.weight, BusEvent.toNat_isCall, List.length_cons]
          omega
  | ret rc =>
      simp only [call] at effect
      have fresh : (isotpRecv state.vars.out state.vars.outLen).weight = 0 := rfl
      simp only [Bus.weight, BusEvent.toNat_isCall, fresh]
      omega

/-! ## Whole runs -/

theorem weight_broadcast (s : Bus) (f : CanFrame) :
    (s.broadcast f).weight link = s.weight link + 7 := by
  simp only [Bus.broadcast, Bus.weight, List.length_append, List.length_singleton]
  omega

theorem weight_busStep (s : Bus) (a : BusAction) :
    (busStep link s a).1.weight link + (busStep link s a).2.isCall.toNat ≤
      s.weight link + 7 * (busStep link s a).2.isFrame.toNat := by
  cases a with
  | sender t => exact Nat.le_trans (weight_senderStep link s t) (Nat.le_add_right _ _)
  | receiver t => exact Nat.le_trans (weight_receiverStep link s t) (Nat.le_add_right _ _)
  | foreign f =>
      simp only [busStep]
      split_ifs
      · exact Nat.le_of_eq (weight_broadcast link s f)
      · exact Nat.le_refl _
  | stray f =>
      simp only [busStep]
      split_ifs
      · exact Nat.le_of_eq (weight_broadcast link s f)
      · exact Nat.le_refl _

/-- The number of calls in a run is bounded by the payloads and the frames of others. -/
theorem calls_bounded (schedule : List BusAction) :
    (busTrace link schedule).countP (fun v => v.output.isCall) ≤
      (Bus.start link).weight link +
        7 * (busTrace link schedule).countP (fun v => v.output.isFrame) :=
  Nat.le_trans (Nat.le_add_left _ _)
    (trace_potential (busStep link) (Bus.weight link) BusEvent.isCall BusEvent.isFrame 7
      (weight_busStep link) (.start link) schedule)

end VecuUds
