import VecuUds.Isotp.Filter

/-!
# What an open reassembly loses

A message that arrives in order and in time while no reassembly is open is delivered, foreign
frames or not. While one is open, two things lose a message. A new message only makes the
receiver drop the old one: its first frame is gone with the transfer that it aborts. A signal
makes the call return, and with it go the variables of the transfer. In both cases the
receiver is idle afterwards, and nothing else is lost.
-/

namespace VecuUds

open Foundation

/-! ## Delivery -/

/-- Frames carry one payload at most. -/
theorem Carries.unique {block : List CanFrame} {p q : List UInt8} (first : Carries block p)
    (second : Carries block q) : p = q := by
  cases first with
  | single pci length range body =>
      cases second with
      | single _ length' _ body' => rw [← body, ← body', ← length, ← length']
      | multi pci' => exact absurd (pci.symm.trans pci') (by decide)
  | multi pci length range first count sequence rest =>
      cases second with
      | single pci' => exact absurd (pci.symm.trans pci') (by decide)
      | multi _ length' _ first' _ _ rest' =>
          have same : p.length = q.length := length.symm.trans length'
          rw [← List.take_append_drop 6 p, ← List.take_append_drop 6 q, ← first, ← first', ← rest,
            ← rest', same]

/-- What a message with a first frame says about the frames behind it. -/
theorem Carries.of_first {ff : CanFrame} {cfs : List CanFrame} {p : List UInt8}
    (carries : Carries (ff :: cfs) p) (pci : ff.pci = pciFf) :
    ff.ffLength = p.length ∧ 8 ≤ p.length ∧ p.length ≤ isotpMaxPayload ∧
      cfs.length = (p.length - 6 + 6) / 7 ∧ InSequence cfs := by
  cases carries with
  | single other => exact absurd (other.symm.trans pci) (by decide)
  | multi _ length range first count sequence rest =>
      exact ⟨length, range.1, range.2, count, sequence⟩

/-- Only the first frame of a message is no consecutive one. -/
theorem Carries.kinds {f : CanFrame} {cfs : List CanFrame} {p : List UInt8}
    (carries : Carries (f :: cfs) p) : f.pci ≠ pciCf ∧ ∀ g ∈ cfs, g.pci = pciCf := by
  cases carries with
  | single pci =>
      rw [pci]
      exact ⟨by decide, fun g none => absurd none List.not_mem_nil⟩
  | multi pci _ _ _ _ sequence _ =>
      rw [pci]
      exact ⟨by decide, sequence.pci⟩

/-- The receiver examines the frame within the deadline that it counts from the one before. -/
def InTime (before next : Arrival) : Prop := next.examined ≤ before.armed + isotpNCrMs

/-- A complete message with this payload arrives, perhaps among foreign frames: it fits the
buffer, its flow control can be written, and its frames are in time. -/
structure Arrives (addr : IsotpAddr) (outCap : Nat) (stream : List Arrival) (p : List UInt8) :
    Prop where
  carries : Carries ((arrivalsOn addr.rxId stream).map Arrival.frame) p
  fits : p.length ≤ outCap
  sent : ∀ a ∈ arrivalsOn addr.rxId stream, a.sent = 0
  timely : (arrivalsOn addr.rxId stream).IsChain InTime

section Delivery

variable {addr : IsotpAddr} {outCap : Nat}

/-- The missing frames of an open reassembly complete it. -/
theorem delivered_of_partial {v : RecvVars} {own : List CanFrame} {ff : CanFrame}
    {cfs : List CanFrame} {last : Arrival} {rest : List Arrival} {p : List UInt8}
    (opened : Partial outCap own v ff cfs) (more : v.got < v.totalLen)
    (counted : v.deadline = last.armed + isotpNCrMs)
    (carries : Carries (ff :: (cfs ++ rest.map Arrival.frame)) p)
    (mine : ∀ a ∈ rest, a.frame.maskedId = addr.rxId) (timely : (last :: rest).IsChain InTime) :
    ∃ w, run (receive addr outCap) (.loop v) rest = .done w 0 ∧ w.outLen = p.length ∧
      w.out.take w.outLen = p := by
  induction rest generalizing v own cfs last with
  | nil =>
      -- a receiver with all frames has got all bytes
      rw [List.map_nil, List.append_nil] at carries
      obtain ⟨length, -, -, count, -⟩ := carries.of_first opened.pci
      have total := opened.total
      have got := opened.got
      omega
  | cons a rest ih =>
      obtain ⟨length, long, -, count, sequence⟩ := carries.of_first opened.pci
      rw [List.map_cons] at count sequence
      have own' := mine a List.mem_cons_self
      have pci : a.frame.pci = pciCf := sequence.pci a.frame (by simp)
      have sn : a.frame.nibble = v.nextSn :=
        UInt8.toNat_inj.mp (sequence.numbered.at.trans opened.sn.symm)
      obtain ⟨soon, later⟩ := List.isChain_cons_cons.mp timely
      have early : a.examined ≤ v.deadline := by
        rw [counted]
        exact soon
      have next := opened.next more pci sn
      by_cases still : v.got + v.chunk < v.totalLen
      · have effect : ReceiveEffect addr outCap v a _ _ :=
          .continued own' opened.started early pci sn still
        rw [run_cons, effect.eq]
        refine ih (next.deadline (a.armed + isotpNCrMs)) still rfl ?_ ?_ later
        · rwa [List.append_assoc, List.singleton_append, ← List.map_cons]
        · exact fun x member => mine x (List.mem_cons_of_mem a member)
      · have whole : v.totalLen ≤ v.got + v.chunk := Nat.le_of_not_lt still
        have effect : ReceiveEffect addr outCap v a _ _ :=
          .completed own' opened.started early pci sn whole
        have last : rest = [] := by
          apply List.eq_nil_of_length_eq_zero
          have total := opened.total
          have got := opened.got
          have chunk : v.chunk = min 7 (v.totalLen - v.got) := rfl
          simp only [List.length_append, List.length_cons, List.length_map] at count
          omega
        rw [last, List.map_cons, List.map_nil] at carries
        have same := (next.complete whole).2.unique carries
        rw [run_cons, effect.eq, run_receive_done]
        exact ⟨_, rfl, opened.total.symm.trans length, same⟩

/-- A message that arrives while no reassembly is open is delivered. -/
theorem delivered_of_idle {v : RecvVars} (closed : v.receiving = false) {block : List Arrival}
    {p : List UInt8} (carries : Carries (block.map Arrival.frame) p) (fits : p.length ≤ outCap)
    (mine : ∀ a ∈ block, a.frame.maskedId = addr.rxId) (sent : ∀ a ∈ block, a.sent = 0)
    (timely : block.IsChain InTime) :
    ∃ w, run (receive addr outCap) (.loop v) block = .done w 0 ∧ w.outLen = p.length ∧
      w.out.take w.outLen = p := by
  cases block with
  | nil => cases carries
  | cons a rest =>
      rw [List.map_cons] at carries
      have own := mine a List.mem_cons_self
      by_cases first : a.frame.pci = pciFf
      · obtain ⟨length, long, bounded, -, -⟩ := carries.of_first first
        have opens : Opens outCap a.frame := ⟨first, by omega, by omega, by omega⟩
        have effect : ReceiveEffect addr outCap v a _ _ :=
          .opened own closed opens (sent a List.mem_cons_self)
        have opened := (Partial.first opens [] v).deadline (a.armed + isotpNCrMs)
        have more : 6 < a.frame.ffLength := by omega
        rw [run_cons, effect.eq]
        refine delivered_of_partial opened more rfl ?_ ?_ timely
        · exact carries
        · exact fun x member => mine x (List.mem_cons_of_mem a member)
      · generalize split : a.frame :: rest.map Arrival.frame = frames at carries
        cases carries with
        | multi pci =>
            obtain ⟨rfl, -⟩ := List.cons.inj split
            exact absurd pci first
        | @single f _ pci length range body =>
            obtain ⟨same, none⟩ := List.cons.inj split
            have last : rest = [] := List.map_eq_nil_iff.mp none
            subst same last
            have delivers : Delivers outCap a.frame := ⟨pci, by omega, by omega, by omega⟩
            have effect : ReceiveEffect addr outCap v a _ _ := .single own closed delivers
            obtain ⟨copied, -⟩ := take_delivered (v := v) delivers
            rw [run_cons, effect.eq, run_nil]
            refine ⟨_, rfl, length, copied.trans ?_⟩
            rw [length, body]

/-- The same with foreign frames in between and anything behind. -/
theorem Arrives.delivered {stream : List Arrival} {p : List UInt8}
    (arrives : Arrives addr outCap stream p) {v : RecvVars} (closed : v.receiving = false) :
    ∃ w, run (receive addr outCap) (.loop v) stream = .done w 0 ∧ w.outLen = p.length ∧
      w.out.take w.outLen = p := by
  have filtered := (run_receive_filter addr outCap (.loop v)
    (fun a => a.frame.maskedId = addr.rxId)
    (fun a (_ : a ∈ stream) out => of_decide_eq_false out)).1
  rw [← filtered]
  refine delivered_of_idle closed arrives.carries arrives.fits ?_ arrives.sent arrives.timely
  intro a member
  exact of_decide_eq_true (List.mem_filter.mp member).2

end Delivery

/-! ## Calling again -/

/-- A caller that calls `isotp_recv` again whenever it returns this code. -/
def callAgain (code : Int) : RecvState → RecvState
  | .done v rc => if rc = code then isotpRecv v.out v.outLen else .done v rc
  | s => s

/-- One arrival for a caller that calls again after an error. -/
def listen (addr : IsotpAddr) (outCap : Nat) (s : RecvState) (a : Arrival) :
    RecvState × List CanFrame :=
  (callAgain (-1) (receive addr outCap s a).1, (receive addr outCap s a).2)

section Listening

variable {addr : IsotpAddr} {outCap : Nat}

/-- Without an error, no second call is made. -/
theorem run_listen {s : RecvState} {stream : List Arrival}
    (good : ∀ w, run (receive addr outCap) s stream ≠ .done w (-1)) :
    run (listen addr outCap) s stream = run (receive addr outCap) s stream ∧
      (trace (listen addr outCap) s stream).flatMap Visit.output =
        (trace (receive addr outCap) s stream).flatMap Visit.output := by
  induction stream generalizing s with
  | nil => exact ⟨rfl, rfl⟩
  | cons a rest ih =>
      have step : listen addr outCap s a = receive addr outCap s a := by
        refine Prod.ext ?_ rfl
        show callAgain (-1) (receive addr outCap s a).1 = (receive addr outCap s a).1
        cases next : (receive addr outCap s a).1 with
        | done v rc =>
            refine if_neg ?_
            rintro rfl
            refine good v ?_
            rw [run_cons, next, run_receive_done]
        | _ => rfl
      obtain ⟨states, written⟩ := ih good
      rw [run_cons, run_cons, trace_cons, trace_cons, List.flatMap_cons, List.flatMap_cons, visit,
        visit, step, states, written]
      exact ⟨rfl, rfl⟩

/-- An idle receiver passes over consecutive frames. -/
theorem receive_idle_cf (outCap : Nat) {v : RecvVars} (closed : v.receiving = false) {a : Arrival}
    (stray : a.frame.maskedId = addr.rxId → a.frame.pci = pciCf) :
    receive addr outCap (.loop v) a = (.loop v, []) := by
  by_cases own : a.frame.maskedId = addr.rxId
  · have pci := stray own
    have second : a.frame.pci ≠ pciFf := by
      rw [pci]
      decide
    exact (ReceiveEffect.ignored own closed second (not_delivers pci (by decide))).eq
  · exact (ReceiveEffect.foreign own).eq

theorem run_receive_idle_cf (outCap : Nat) {v : RecvVars} (closed : v.receiving = false)
    {stream : List Arrival}
    (stray : ∀ a ∈ stream, a.frame.maskedId = addr.rxId → a.frame.pci = pciCf) :
    run (receive addr outCap) (.loop v) stream = .loop v ∧
      (trace (receive addr outCap) (.loop v) stream).flatMap Visit.output = [] := by
  induction stream with
  | nil => exact ⟨rfl, rfl⟩
  | cons a rest ih =>
      have here := receive_idle_cf outCap closed (stray a List.mem_cons_self)
      obtain ⟨stays, silent⟩ := ih fun x member => stray x (List.mem_cons_of_mem a member)
      rw [run_cons, trace_cons, List.flatMap_cons, visit, here]
      exact ⟨stays, silent⟩

theorem run_receive_foreign (outCap : Nat) {s : RecvState} (settled : Settled s)
    {stream : List Arrival} (foreign : ∀ a ∈ stream, a.frame.maskedId ≠ addr.rxId) :
    run (receive addr outCap) s stream = s ∧
      (trace (receive addr outCap) s stream).flatMap Visit.output = [] := by
  obtain ⟨states, written⟩ := run_receive_filter addr outCap settled
    (fun _ => false) (fun a member _ => foreign a member)
  have none : stream.filter (fun _ => false) = [] := List.filter_false stream
  rw [none] at states written
  exact ⟨states.symm, written.symm⟩

/-- A new message during a reassembly ends the old transfer and is lost with it. -/
theorem swallowed_of_open (outCap : Nat) {v : RecvVars} (receiving : v.receiving = true)
    {stream : List Arrival} {p : List UInt8}
    (carries : Carries ((arrivalsOn addr.rxId stream).map Arrival.frame) p) :
    ∃ head, (arrivalsOn addr.rxId stream).head? = some head ∧
      (head.examined ≤ v.deadline →
        run (receive addr outCap) (.loop v) stream = .loop { v with receiving := false }) ∧
      (v.deadline < head.examined →
        run (receive addr outCap) (.loop v) stream = .done v (-1)) ∧
      (∃ w, run (listen addr outCap) (.loop v) stream = .loop w ∧ w.receiving = false ∧
        w.outLen = v.outLen) ∧
      (trace (listen addr outCap) (.loop v) stream).flatMap Visit.output = [] := by
  cases block : arrivalsOn addr.rxId stream with
  | nil =>
      rw [block] at carries
      cases carries
  | cons head rest =>
      rw [block, List.map_cons] at carries
      obtain ⟨first, cfs⟩ := carries.kinds
      obtain ⟨front, back, split, foreign, own, behind⟩ := List.filter_eq_cons_iff.mp block
      have mine : head.frame.maskedId = addr.rxId := of_decide_eq_true own
      have others : ∀ a ∈ front, a.frame.maskedId ≠ addr.rxId := by
        intro a member same
        exact foreign a member (decide_eq_true same)
      have stray : ∀ a ∈ back, a.frame.maskedId = addr.rxId → a.frame.pci = pciCf := by
        intro a member same
        have kept : a ∈ rest := behind ▸ List.mem_filter.mpr ⟨member, decide_eq_true same⟩
        exact cfs a.frame (List.mem_map_of_mem kept)
      obtain ⟨waits, quiet⟩ := run_receive_foreign outCap (.loop v) others
      have ahead : ∀ s, run (receive addr outCap) s stream =
          run (receive addr outCap) (run (receive addr outCap) s front) (head :: back) := by
        intro s
        rw [split, run_append]
      refine ⟨head, rfl, ?_, ?_, ?_⟩
      · intro timely
        have effect : ReceiveEffect addr outCap v head _ _ :=
          .aborted mine receiving timely first
        rw [ahead, waits, run_cons, effect.eq]
        exact (run_receive_idle_cf outCap rfl stray).1
      · intro late
        have effect : ReceiveEffect addr outCap v head _ _ := .late mine receiving late
        rw [ahead, waits, run_cons, effect.eq, run_receive_done]
      · -- the caller that calls again is idle behind the head, in either case
        have front' : ∀ w, run (receive addr outCap) (.loop v) front ≠ .done w (-1) := by
          intro w
          rw [waits]
          exact RecvState.noConfusion
        obtain ⟨heard, silent⟩ := run_listen front'
        obtain ⟨w, step, closed, length⟩ : ∃ w, listen addr outCap (.loop v) head =
            (.loop w, []) ∧ w.receiving = false ∧ w.outLen = v.outLen := by
          by_cases late : v.deadline < head.examined
          · have effect : ReceiveEffect addr outCap v head _ _ := .late mine receiving late
            rw [listen, effect.eq]
            exact ⟨_, rfl, rfl, rfl⟩
          · have effect : ReceiveEffect addr outCap v head _ _ :=
              .aborted mine receiving (UInt64.not_lt.mp late) first
            rw [listen, effect.eq]
            exact ⟨_, rfl, rfl, rfl⟩
        obtain ⟨idle, nothing⟩ := run_receive_idle_cf outCap closed stray
        have back' : ∀ u, run (receive addr outCap) (.loop w) back ≠ .done u (-1) := by
          intro u
          rw [idle]
          exact RecvState.noConfusion
        obtain ⟨later, nothing'⟩ := run_listen back'
        rw [split, run_append, trace_append, heard, waits, run_cons, trace_cons, visit, step,
          later, idle, List.flatMap_append, silent, quiet, List.flatMap_cons, nothing', nothing]
        exact ⟨⟨w, rfl, closed, length⟩, rfl⟩

end Listening

/-- Where a caller stands that calls again after every error. -/
def listenStream (addr : IsotpAddr) (out : List UInt8) (outCap outLen : Nat)
    (stream : List Arrival) : RecvState :=
  run (listen addr outCap) (isotpRecv out outLen) stream

/-- Calls in a row, the first of which stands at its read after a part of the stream. -/
theorem listenStream_append {addr : IsotpAddr} {out : List UInt8} {outCap outLen : Nat}
    {past : List Arrival} {v : RecvVars}
    (standing : recvStream addr out outCap outLen past = .loop v) (stream : List Arrival) :
    listenStream addr out outCap outLen (past ++ stream) =
      run (listen addr outCap) (.loop v) stream := by
  rw [recvStream_eq] at standing
  have good : ∀ w, run (receive addr outCap) (isotpRecv out outLen) past ≠ .done w (-1) := by
    intro w
    rw [standing]
    exact RecvState.noConfusion
  rw [listenStream, run_append, (run_listen good).1, standing]

/-- **An aborted reassembly costs one message more, and no further one.** A message that
arrives while a reassembly is open is lost with it: if its first frame is in time, the running
call drops the old transfer silently, and otherwise it returns `-1`; either way the caller
stands at a read, with no reassembly open and its length as it was. The message that
arrives next is delivered. -/
theorem isotp_recv_after_abort {addr : IsotpAddr} {out : List UInt8} {outCap outLen : Nat}
    {past lost next : List Arrival} {v : RecvVars} {p q : List UInt8}
    (standing : recvStream addr out outCap outLen past = .loop v) (receiving : v.receiving = true)
    (second : Arrives addr outCap lost p) (third : Arrives addr outCap next q) :
    (∃ head, (arrivalsOn addr.rxId lost).head? = some head ∧
      (head.examined ≤ v.deadline →
        recvStream addr out outCap outLen (past ++ lost) =
          .loop { v with receiving := false }) ∧
      (v.deadline < head.examined →
        recvStream addr out outCap outLen (past ++ lost) = .done v (-1))) ∧
      (∃ w, listenStream addr out outCap outLen (past ++ lost) = .loop w ∧
        w.receiving = false ∧ w.outLen = outLen) ∧
      ∃ w, listenStream addr out outCap outLen (past ++ lost ++ next) = .done w 0 ∧
        w.outLen = q.length ∧ w.out.take w.outLen = q := by
  obtain ⟨head, first, timely, late, ⟨w, idle, closed, length⟩, -⟩ :=
    swallowed_of_open outCap receiving second.carries
  have unchanged : v.outLen = outLen := by
    have here := recvStream_paced addr out outCap outLen past
    rw [standing] at here
    cases here with
    | idle _ length => exact length
    | opened _ _ _ _ _ _ length => exact length
  have running : recvStream addr out outCap outLen (past ++ lost) =
      run (receive addr outCap) (.loop v) lost := by
    rw [recvStream_eq, run_append, ← recvStream_eq, standing]
  refine ⟨⟨head, first, ?_, ?_⟩, ⟨w, ?_, closed, length.trans unchanged⟩, ?_⟩
  · intro early
    exact running.trans (timely early)
  · intro slow
    exact running.trans (late slow)
  · exact (listenStream_append standing lost).trans idle
  · obtain ⟨u, delivered, size, payload⟩ := third.delivered closed
    refine ⟨u, ?_, size, payload⟩
    have good : ∀ x, run (receive addr outCap) (.loop w) next ≠ .done x (-1) := by
      intro x
      rw [delivered]
      intro same
      exact absurd (RecvState.done.inj same).2 (by decide)
    rw [List.append_assoc, listenStream_append standing, run_append, idle, (run_listen good).1,
      delivered]

/-- The first frame of a transfer that never goes on. -/
def openTransfer : List Arrival := [⟨ffFrame 0x7E0 probe, 0, 0, 0⟩]

/-- A single frame with one byte. -/
def oneByte (b : UInt8) : List Arrival := [⟨sfFrame 0x7E0 [b], 0, 0, 0⟩]

theorem arrives_oneByte (b : UInt8) : Arrives ⟨0x7E0, 0x7E8⟩ 8 (oneByte b) [b] := by
  have only : arrivalsOn 0x7E0 (oneByte b) = oneByte b := by
    refine List.filter_eq_self.mpr ?_
    intro a member
    rw [List.mem_singleton.mp member]
    exact decide_eq_true (CanFrame.maskedId_padded 0x7E0 _)
  have short : [b].length ≤ 7 := Nat.le_of_ble_eq_true rfl
  refine ⟨?_, Nat.le_of_ble_eq_true rfl, ?_, ?_⟩
  · obtain ⟨pci, length⟩ := sfFrame_pci 0x7E0 short
    rw [only]
    exact .single pci length ⟨Nat.le_refl 1, short⟩ (sfFrame_body 0x7E0 short)
  · rw [only]
    intro a member
    rw [List.mem_singleton.mp member]
  · rw [only]
    exact List.isChain_singleton _

theorem isotp_recv_after_abort_oneByte :
    ∃ w, listenStream ⟨0x7E0, 0x7E8⟩ [] 8 0 (openTransfer ++ oneByte 5 ++ oneByte 7) =
        .done w 0 ∧ w.outLen = 1 ∧ w.out.take w.outLen = [7] :=
  (@isotp_recv_after_abort ⟨0x7E0, 0x7E8⟩ [] 8 0 openTransfer (oneByte 5) (oneByte 7) _ [5] [7]
    rfl rfl (arrives_oneByte 5) (arrives_oneByte 7)).2.2

/-- The single frame that aborts the transfer is not delivered. -/
theorem isotp_recv_swallows :
    ¬ ∀ (addr : IsotpAddr) (out : List UInt8) (outCap outLen : Nat) (past stream : List Arrival)
      (v : RecvVars) (p : List UInt8), recvStream addr out outCap outLen past = .loop v →
      v.receiving = true → Arrives addr outCap stream p →
      ∃ w, listenStream addr out outCap outLen (past ++ stream) = .done w 0 ∧
        w.out.take w.outLen = p := by
  intro claim
  obtain ⟨w, delivered, -⟩ :=
    claim ⟨0x7E0, 0x7E8⟩ [] 8 0 openTransfer (oneByte 5) _ [5] rfl rfl (arrives_oneByte 5)
  cases delivered

/-! ## Signals -/

/-- What happens to a caller between two reads: a frame arrives, or a signal interrupts the
read. -/
inductive RecvInput where
  | frame (a : Arrival)
  | signal

/-- The frames among the inputs. -/
def arrivals (inputs : List RecvInput) : List Arrival :=
  inputs.filterMap fun
    | .frame a => some a
    | .signal => none

/-- One input for a caller that calls again after an interruption. -/
def attend (addr : IsotpAddr) (outCap : Nat) (s : RecvState) : RecvInput →
    RecvState × List CanFrame
  | .frame a => receive addr outCap s a
  | .signal => (callAgain 1 (recvResume addr outCap s .interrupted), [])

/-- Where a caller stands that calls again after every interruption. -/
def attendStream (addr : IsotpAddr) (out : List UInt8) (outCap outLen : Nat)
    (inputs : List RecvInput) : RecvState :=
  run (attend addr outCap) (isotpRecv out outLen) inputs

/-- The flow controls that its calls write. -/
def attendFlow (addr : IsotpAddr) (out : List UInt8) (outCap outLen : Nat)
    (inputs : List RecvInput) : List CanFrame :=
  (trace (attend addr outCap) (isotpRecv out outLen) inputs).flatMap Visit.output

/-- The states differ in variables only that no later step and no caller uses. -/
inductive Alike : RecvState → RecvState → Prop where
  | same (s : RecvState) : Alike s s
  | idle {v w : RecvVars} (closed : v.receiving = false) (closed' : w.receiving = false)
      (out : v.out = w.out) (length : v.outLen = w.outLen) : Alike (.loop v) (.loop w)
  | done {v w : RecvVars} {rc : Int} (out : v.out = w.out) (length : v.outLen = w.outLen) :
      Alike (.done v rc) (.done w rc)

section Signals

variable {addr : IsotpAddr} {outCap : Nat}

theorem Alike.result {s t : RecvState} (alike : Alike s t) : s.result = t.result := by
  cases alike with
  | same => rfl
  | idle => rfl
  | done out length => simp only [RecvState.result, out, length]

/-- States that are alike take an arrival alike. -/
theorem Alike.receive {s t : RecvState} (alike : Alike s t) (addr : IsotpAddr) (outCap : Nat)
    (a : Arrival) :
    Alike (receive addr outCap s a).1 (receive addr outCap t a).1 ∧
      (VecuUds.receive addr outCap s a).2 = (VecuUds.receive addr outCap t a).2 := by
  cases alike with
  | same => exact ⟨.same _, rfl⟩
  | done out length => exact ⟨.done out length, rfl⟩
  | @idle v w closed closed' out length =>
      have effect := receive_effect addr outCap v a
      generalize (VecuUds.receive addr outCap (.loop v) a).1 = s at effect ⊢
      generalize (VecuUds.receive addr outCap (.loop v) a).2 = written at effect ⊢
      cases effect with
      | foreign other =>
          rw [(ReceiveEffect.foreign other).eq]
          exact ⟨.idle closed closed' out length, rfl⟩
      | ignored own _ second bad =>
          rw [(ReceiveEffect.ignored own closed' second bad).eq]
          exact ⟨.idle closed closed' out length, rfl⟩
      | badLength own _ first bad =>
          rw [(ReceiveEffect.badLength own closed' first bad).eq]
          exact ⟨.idle closed closed' out length, rfl⟩
      | single own _ delivers =>
          rw [(ReceiveEffect.single own closed' delivers).eq]
          exact ⟨.done (congrArg (overwrite · 0 _) out) rfl, rfl⟩
      | unsent own _ opens bad =>
          rw [(ReceiveEffect.unsent own closed' opens bad).eq]
          exact ⟨.done (congrArg (overwrite · 0 _) out) length, rfl⟩
      | opened own _ opens good =>
          rw [(ReceiveEffect.opened own closed' opens good).eq]
          have same : (v.opened a.frame).armedAt a.armed = (w.opened a.frame).armedAt a.armed := by
            simp only [RecvVars.armedAt, RecvVars.opened, out, length]
          rw [same]
          exact ⟨.same _, rfl⟩
      | late _ receiving => exact absurd receiving (ne_true_of_eq_false closed)
      | aborted _ receiving => exact absurd receiving (ne_true_of_eq_false closed)
      | mismatch _ receiving => exact absurd receiving (ne_true_of_eq_false closed)
      | continued _ receiving => exact absurd receiving (ne_true_of_eq_false closed)
      | completed _ receiving => exact absurd receiving (ne_true_of_eq_false closed)

/-- A signal finds the call at its read, and no reassembly open. -/
theorem Alike.signal {s t : RecvState} (alike : Alike s t) (addr : IsotpAddr) (outCap : Nat)
    (settled : Settled s)
    (calm : ∀ v, s = .loop v → v.receiving = false) :
    Alike (attend addr outCap s .signal).1 t := by
  cases settled with
  | loop v =>
      have closed := calm v rfl
      have again : (attend addr outCap (.loop v) .signal).1 = isotpRecv v.out v.outLen := rfl
      rw [again]
      cases alike with
      | same => exact .idle rfl closed rfl rfl
      | idle _ closed' out length => exact .idle rfl closed' out length
  | done v code =>
      have stays : (attend addr outCap (.done v _) .signal).1 = .done v _ := if_neg code
      rw [stays]
      exact alike

theorem Settled.attend {s : RecvState} (settled : Settled s) (i : RecvInput) :
    Settled (attend addr outCap s i).1 := by
  cases i with
  | frame a => exact settled.receive addr outCap a
  | signal =>
      cases settled with
      | loop v => exact .loop _
      | done v code =>
          have stays : (VecuUds.attend addr outCap (.done v _) .signal).1 = .done v _ :=
            if_neg code
          rw [stays]
          exact .done v code

/-- Calm signals leave no trace in a run. -/
theorem Alike.run {s t : RecvState} (alike : Alike s t) (settled : Settled s)
    {inputs : List RecvInput}
    (calm : ∀ before after v, inputs = before ++ .signal :: after →
      run (VecuUds.attend addr outCap) s before = .loop v → v.receiving = false) :
    Alike (run (VecuUds.attend addr outCap) s inputs)
        (run (VecuUds.receive addr outCap) t (arrivals inputs)) ∧
      (trace (VecuUds.attend addr outCap) s inputs).flatMap Visit.output =
        (trace (VecuUds.receive addr outCap) t (arrivals inputs)).flatMap Visit.output := by
  induction inputs generalizing s t with
  | nil => exact ⟨alike, rfl⟩
  | cons i rest ih =>
      have later : ∀ before after v, rest = before ++ .signal :: after →
          Foundation.run (VecuUds.attend addr outCap) (VecuUds.attend addr outCap s i).1 before =
            .loop v → v.receiving = false := by
        intro before after v split standing
        exact calm (i :: before) after v (by rw [split, List.cons_append]) standing
      cases i with
      | frame a =>
          obtain ⟨next, written⟩ := alike.receive addr outCap a
          obtain ⟨states, outputs⟩ := ih next (settled.receive addr outCap a) later
          have some : arrivals (.frame a :: rest) = a :: arrivals rest := rfl
          rw [some, run_cons, run_cons, trace_cons, trace_cons, List.flatMap_cons,
            List.flatMap_cons]
          exact ⟨states, congrArg₂ (· ++ ·) written outputs⟩
      | signal =>
          have next := alike.signal addr outCap settled
            fun v standing => calm [] rest v rfl standing
          have none : arrivals (.signal :: rest) = arrivals rest := rfl
          rw [none, run_cons, trace_cons, List.flatMap_cons]
          exact ih next (settled.attend .signal) later

/-- A call that is still at its read after an arrival has left the caller's length alone. -/
theorem outLen_receive {v w : RecvVars} {a : Arrival}
    (standing : (receive addr outCap (.loop v) a).1 = .loop w) : w.outLen = v.outLen := by
  have effect := receive_effect addr outCap v a
  rw [standing] at effect
  generalize (receive addr outCap (.loop v) a).2 = written at effect
  cases effect <;> rfl

theorem outLen_attend {s : RecvState} {v : RecvVars} {outLen : Nat} (settled : Settled s)
    (length : ∀ w, s = .loop w → w.outLen = outLen) (i : RecvInput)
    (standing : (attend addr outCap s i).1 = .loop v) : v.outLen = outLen := by
  cases settled with
  | loop w =>
      cases i with
      | frame a => exact (outLen_receive standing).trans (length w rfl)
      | signal =>
          rw [← RecvState.loop.inj standing]
          exact length w rfl
  | done w code =>
      cases i with
      | frame a => cases standing
      | signal =>
          have stays : (attend addr outCap (.done w _) .signal).1 = .done w _ := if_neg code
          rw [stays] at standing
          cases standing

theorem outLen_attendStream {out : List UInt8} {outLen : Nat} {inputs : List RecvInput}
    {v : RecvVars} (standing : attendStream addr out outCap outLen inputs = .loop v) :
    v.outLen = outLen := by
  have kept : Settled (attendStream addr out outCap outLen inputs) ∧
      ∀ v, attendStream addr out outCap outLen inputs = .loop v → v.outLen = outLen := by
    refine run_invariant (P := fun s => Settled s ∧ ∀ v, s = .loop v → v.outLen = outLen)
      (VecuUds.attend addr outCap) ?_ ⟨.loop _, ?_⟩ inputs
    · rintro s i ⟨settled, length⟩
      exact ⟨settled.attend i, fun v standing => outLen_attend settled length i standing⟩
    · intro v start
      rw [← RecvState.loop.inj start]
  exact kept.2 v standing

/-- A call that is interrupted is followed by a new one, with the buffer as it is. -/
theorem attendStream_signal {out : List UInt8} {outLen : Nat} {before : List RecvInput}
    {v : RecvVars} (standing : attendStream addr out outCap outLen before = .loop v)
    (rest : List RecvInput) :
    attendStream addr out outCap outLen (before ++ .signal :: rest) =
      attendStream addr v.out outCap outLen rest := by
  have length := outLen_attendStream standing
  rw [attendStream] at standing
  rw [attendStream, run_append, standing, run_cons, attendStream, ← length]
  rfl

theorem run_attend_frames (s : RecvState) (stream : List Arrival) :
    run (attend addr outCap) s (stream.map RecvInput.frame) =
      run (receive addr outCap) s stream := by
  induction stream generalizing s with
  | nil => rfl
  | cons a rest ih => exact ih (receive addr outCap s a).1

end Signals

/-- **A signal costs the transfer that it interrupts, and nothing else.** If every signal finds
the call with no reassembly open, calling again gives the same result and the same flow
controls as the stream without signals. What follows a signal is received as by a first call,
so a transfer that was open is lost: the frames that it still lacks make no message. -/
theorem isotp_recv_interrupted (addr : IsotpAddr) (out : List UInt8) (outCap outLen : Nat)
    (inputs : List RecvInput) :
    ((∀ before after v, inputs = before ++ .signal :: after →
        attendStream addr out outCap outLen before = .loop v → v.receiving = false) →
      (attendStream addr out outCap outLen inputs).result =
          (recvStream addr out outCap outLen (arrivals inputs)).result ∧
        attendFlow addr out outCap outLen inputs =
          flowStream addr out outCap outLen (arrivals inputs)) ∧
      ∀ before after v, inputs = before ++ .signal :: after →
        attendStream addr out outCap outLen before = .loop v →
          attendStream addr out outCap outLen inputs =
              attendStream addr v.out outCap outLen after ∧
            ∀ rest : List Arrival,
              (∀ a ∈ rest, a.frame.maskedId = addr.rxId → a.frame.pci = pciCf) →
              (attendStream addr out outCap outLen
                (before ++ .signal :: rest.map RecvInput.frame)).result = none := by
  constructor
  · intro calm
    obtain ⟨states, written⟩ := (Alike.same (isotpRecv out outLen)).run (.loop _) calm
    rw [recvStream_eq, flowStream_eq]
    exact ⟨states.result, written⟩
  · intro before after v split standing
    refine ⟨by rw [split, attendStream_signal standing], ?_⟩
    intro rest stray
    rw [attendStream_signal standing, attendStream, run_attend_frames, isotpRecv,
      (run_receive_idle_cf outCap rfl stray).1]
    rfl

/-- A transfer of two frames with a signal in between. -/
def interruptedTransfer : List RecvInput :=
  [.frame ⟨ffFrame 0x7E0 probe, 0, 0, 0⟩, .signal, .frame ⟨cfFrame 0x7E0 1 [7, 8], 0, 0, 0⟩]

/-- The message of the interrupted transfer is never returned. -/
theorem isotp_recv_loses_interrupted :
    ¬ ∀ (addr : IsotpAddr) (out : List UInt8) (outCap outLen : Nat) (inputs : List RecvInput),
      AllTimely addr out outCap outLen (arrivals inputs) →
      (attendStream addr out outCap outLen inputs).result =
        (recvStream addr out outCap outLen (arrivals inputs)).result := by
  intro claim
  have timely : AllTimely ⟨0x7E0, 0x7E8⟩ [] 8 0 (arrivals interruptedTransfer) := by
    apply allTimely_of_zero
    simp [arrivals, interruptedTransfer]
  have same := claim ⟨0x7E0, 0x7E8⟩ [] 8 0 interruptedTransfer timely
  exact absurd same (by decide +kernel)

end VecuUds
