import VecuUds.Queue.Monitor

/-!
# The monitor settles

As long as no new call is made and no thread wakes up by itself, the traffic in the
monitor dies down. A thread that has not acted yet will act at most once; when it does,
its signal or its broadcasts can wake everybody else, and each of them can take the mutex,
test and park again. So the credit that a call needs grows with the number of threads,
and the length of a run at most with its square.

What is left is no deadlock: either some thread can go on, or the mutex is free and whoever
is inside a call is parked for a reason, a consumer at an empty queue or a producer at a
full one. A closed queue keeps nobody.
-/

namespace VecuUds

open Foundation

/-- A bound on the moves that a call causes from its act on, among `n` threads. -/
def QueueCall.credit (n : Nat) : QueueCall → Nat
  | .push _ _ => 2 * n + 2
  | .pop _ => 2 * n + 2
  | .shutdown => 4 * n + 3

namespace MonitorPc

/-- The same bound for a thread anywhere in its call. Whoever is woken pays two moves, for
the mutex and for its test, before it parks again. -/
def weight (n : Nat) : MonitorPc → Nat
  | .outside => 0
  | .locking call => call.credit n + 2
  | .testing call => call.credit n + 1
  | .parked call => call.credit n
  | .woken call => call.credit n + 2
  | .signalling _ => 2 * n + 2
  | .broadcasting .notEmpty => 4 * n + 3
  | .broadcasting .notFull => 2 * n + 2
  | .unlocking => 1

/-- Inside a call and not parked. -/
def active : MonitorPc → Bool
  | .outside => false
  | .parked _ => false
  | _ => true

theorem weight_le (n : Nat) (pc : MonitorPc) : pc.weight n ≤ 4 * n + 5 := by
  have credit : ∀ call : QueueCall, call.credit n ≤ 4 * n + 3 := by
    intro call
    cases call <;> simp only [QueueCall.credit] <;> omega
  cases pc with
  | outside => exact Nat.zero_le _
  | locking call => exact Nat.add_le_add_right (credit call) 2
  | testing call => exact Nat.le_succ_of_le (Nat.add_le_add_right (credit call) 1)
  | parked call => exact Nat.le_trans (credit call) (Nat.add_le_add_left (by decide) _)
  | woken call => exact Nat.add_le_add_right (credit call) 2
  | signalling c => simp only [weight]; omega
  | broadcasting c => cases c <;> simp only [weight] <;> omega
  | unlocking => simp only [weight]; omega

theorem weight_wake (n : Nat) (c : Cond) (r : Bool) (pc : MonitorPc) :
    (pc.wake c r).weight n ≤ pc.weight n + 2 := by
  cases pc with
  | parked call =>
      simp only [wake]
      split_ifs
      · exact Nat.le_refl _
      · exact Nat.le_add_right _ 2
  | _ => exact Nat.le_add_right _ 2

end MonitorPc

section Moves

variable {τ : Type} [Fintype τ] [DecidableEq τ] {s : Monitor τ}

/-- A thread that is inside a call and not parked moves. -/
def GoesOn (v : Visit (Monitor τ) (MonitorInput τ) Unit) : Prop :=
  (v.before.pc v.input.thread).active = true ∧
    v.after.pc v.input.thread ≠ v.before.pc v.input.thread

/-- The credit of all threads. -/
def Monitor.weight (s : Monitor τ) : Nat := ∑ i, (s.pc i).weight (Fintype.card τ)

omit [DecidableEq τ] in
theorem Monitor.weight_le (s : Monitor τ) :
    s.weight ≤ Fintype.card τ * (4 * Fintype.card τ + 5) := by
  have bound := Finset.sum_le_card_nsmul Finset.univ
    (fun i => (s.pc i).weight (Fintype.card τ)) _ fun i _ => (s.pc i).weight_le _
  exact bound

omit [Fintype τ] in
/-- A test costs credit, and nobody parks in a shutdown. -/
theorem monitorTest_pc (n : Nat) (s : Monitor τ) (i : τ) (call : QueueCall) :
    ∃ b, (monitorTest s i call).pc = Function.update s.pc i b ∧
      b.weight n < (MonitorPc.testing call).weight n ∧ b ≠ .parked .shutdown := by
  cases call with
  | push b inside =>
      simp only [monitorTest]
      cases (udsQueuePush s.queue b).2 with
      | wait => exact ⟨_, rfl, Nat.lt_succ_self _, by simp⟩
      | done rc out =>
          refine ⟨_, rfl, ?_, ?_⟩
          · split_ifs <;> simp only [MonitorPc.weight, QueueCall.credit] <;> omega
          · split_ifs <;> simp
  | pop out =>
      simp only [monitorTest]
      cases (udsQueuePopBlocking s.queue out).2 with
      | wait => exact ⟨_, rfl, Nat.lt_succ_self _, by simp⟩
      | done rc m =>
          refine ⟨_, rfl, ?_, ?_⟩
          · split_ifs <;> simp only [MonitorPc.weight, QueueCall.credit] <;> omega
          · split_ifs <;> simp
  | shutdown => exact ⟨_, rfl, Nat.lt_succ_self _, by simp⟩

/-- One thread gives up credit and every other one gains at most `k`. -/
theorem Monitor.weight_lt {s' : Monitor τ} {i : τ} {a b : MonitorPc} {k : Nat}
    (stands : s.pc i = a) (moved : s'.pc i = b)
    (others : ∀ j, j ≠ i →
      (s'.pc j).weight (Fintype.card τ) ≤ (s.pc j).weight (Fintype.card τ) + k)
    (paid : b.weight (Fintype.card τ) + Fintype.card τ * k < a.weight (Fintype.card τ)) :
    s'.weight < s.weight := by
  have total := total_le_of_move i others
  rw [stands, moved] at total
  simp only [Monitor.weight]
  omega

/-- Where only the moving thread changes, it pays for itself. -/
theorem Monitor.weight_goto {i : τ} {a b : MonitorPc} (stands : s.pc i = a) (q : UdsQueue)
    (owner : Option τ) (paid : b.weight (Fintype.card τ) < a.weight (Fintype.card τ)) :
    Monitor.weight ⟨q, owner, Function.update s.pc i b⟩ < s.weight := by
  apply Monitor.weight_lt (k := 0) stands (Function.update_self ..)
  · intro j ne
    have same : Function.update s.pc i b j = s.pc j := Function.update_of_ne ne ..
    exact Nat.le_of_eq (congrArg (MonitorPc.weight _) same)
  · simpa using paid

/-- Where the moving thread wakes others, it pays for them too. -/
theorem Monitor.weight_wakeUp {i : τ} {a b : MonitorPc} (stands : s.pc i = a) (c : Cond)
    (reached : τ → Bool)
    (paid : b.weight (Fintype.card τ) + Fintype.card τ * 2 < a.weight (Fintype.card τ)) :
    ({ s with pc := wakeUp c reached s.pc }.goto i b).weight < s.weight := by
  apply Monitor.weight_lt stands (Function.update_self ..) _ paid
  intro j ne
  change (Function.update (wakeUp c reached s.pc) i b j).weight _ ≤ _
  rw [Function.update_of_ne ne]
  exact MonitorPc.weight_wake _ c (reached j) (s.pc j)

/-- Every move of a thread inside a call that is not parked takes from the credit. -/
theorem GoesOn.weight_lt {x : MonitorInput τ} (goes : GoesOn (visit monitorStep s x)) :
    (monitorStep s x).1.weight < s.weight := by
  obtain ⟨active, moves⟩ := goes
  simp only [visit] at active moves
  cases stands : s.pc x.thread with
  | outside =>
      rw [stands] at active
      cases active
  | parked call =>
      rw [stands] at active
      cases active
  | locking call =>
      simp only [monitorStep, stands] at moves ⊢
      split_ifs at moves ⊢ with free
      · exact Monitor.weight_goto stands _ _ (Nat.lt_succ_self _)
      · exact absurd stands moves
  | woken call =>
      simp only [monitorStep, stands] at moves ⊢
      split_ifs at moves ⊢ with free
      · exact Monitor.weight_goto stands _ _ (Nat.lt_succ_self _)
      · exact absurd stands moves
  | testing call =>
      simp only [monitorStep, stands]
      obtain ⟨b, moved, paid, -⟩ := monitorTest_pc (Fintype.card τ) s x.thread call
      have lower := Monitor.weight_goto stands s.queue s.owner paid
      simpa only [Monitor.weight, moved] using lower
  | signalling c =>
      simp only [monitorStep, stands] at moves ⊢
      split_ifs at moves ⊢ with reaches
      · apply Monitor.weight_wakeUp stands
        simp only [MonitorPc.weight]
        omega
      · exact absurd stands moves
  | broadcasting c =>
      simp only [monitorStep, stands]
      apply Monitor.weight_wakeUp stands
      cases c <;> simp only [MonitorPc.weight, Cond.broadcasted] <;> omega
  | unlocking =>
      simp only [monitorStep, stands]
      exact Monitor.weight_goto stands _ _ Nat.zero_lt_one

end Moves

/-! ## What is left -/

section Rest

variable {τ : Type} [DecidableEq τ] {s : Monitor τ}

/-- The thread is outside, or it waits for something that is not there. -/
def Monitor.Rests (s : Monitor τ) (i : τ) : Prop :=
  s.pc i = .outside ∨
    s.queue.closed = false ∧
      ((s.pc i).waitsOn .notEmpty = true ∧ s.queue.count = 0 ∨
        (s.pc i).waitsOn .notFull = true ∧ s.queue.count = udsQueueCap)

/-- Shutdown waits for nothing but the mutex. -/
def ShutdownAwake (pc : τ → MonitorPc) : Prop := ∀ i, pc i ≠ .parked .shutdown

theorem ShutdownAwake.update {pc : τ → MonitorPc} (awake : ShutdownAwake pc) {i : τ}
    {b : MonitorPc} (here : b ≠ .parked .shutdown) : ShutdownAwake (Function.update pc i b) := by
  intro j
  by_cases same : j = i
  · rw [same, Function.update_self]
    exact here
  · rw [Function.update_of_ne same]
    exact awake j

omit [DecidableEq τ] in
theorem ShutdownAwake.wakeUp {pc : τ → MonitorPc} (awake : ShutdownAwake pc) (c : Cond)
    (reached : τ → Bool) : ShutdownAwake (wakeUp c reached pc) := by
  intro j parked
  have before := awake j
  simp only [VecuUds.wakeUp] at parked
  cases stands : pc j with
  | parked call =>
      rw [stands] at parked before
      simp only [MonitorPc.wake] at parked
      split_ifs at parked
      exact before parked
  | _ =>
      rw [stands] at parked
      cases parked

variable [Fintype τ]

theorem ShutdownAwake.step (awake : ShutdownAwake s.pc) (x : MonitorInput τ) :
    ShutdownAwake (monitorStep s x).1.pc := by
  unfold monitorStep
  cases s.pc x.thread with
  | outside => exact awake.update (by simp)
  | parked call => exact awake.update (by simp)
  | unlocking => exact awake.update (by simp)
  | locking call =>
      dsimp only
      split_ifs
      · exact awake.update (by simp)
      · exact awake
  | woken call =>
      dsimp only
      split_ifs
      · exact awake.update (by simp)
      · exact awake
  | testing call =>
      obtain ⟨b, moved, -, other⟩ := monitorTest_pc 0 s x.thread call
      simp only [moved]
      exact awake.update other
  | signalling c =>
      dsimp only
      split_ifs
      · exact (awake.wakeUp c x.reached).update (by simp)
      · exact awake
  | broadcasting c => exact (awake.wakeUp c _).update (by cases c <;> simp [Cond.broadcasted])

/-- The owner of the mutex can go on. -/
theorem goesOn_of_holds {i : τ} (holds : (s.pc i).holds = true) :
    GoesOn (visit monitorStep s ⟨i, .shutdown, fun _ => true⟩) := by
  have active : (s.pc i).active = true := by
    cases stands : s.pc i <;> rw [stands] at holds <;> first | rfl | cases holds
  refine ⟨active, ?_⟩
  simp only [visit]
  cases stands : s.pc i with
  | testing call =>
      simp only [monitorStep, stands]
      obtain ⟨b, moved, paid, -⟩ := monitorTest_pc 0 s i call
      rw [moved, Function.update_self]
      rintro rfl
      exact Nat.lt_irrefl _ paid
  | signalling c =>
      have reaches : Reaches c (fun _ => true) s.pc := by
        by_cases some : ∃ j, (s.pc j).waitsOn c = true
        · obtain ⟨j, waits⟩ := some
          exact .inl ⟨j, by rw [waits]; rfl⟩
        · exact .inr fun j => by simpa using fun waits => some ⟨j, waits⟩
      simp only [monitorStep, stands, if_pos reaches, Monitor.goto, Function.update_self]
      simp
  | broadcasting c =>
      simp only [monitorStep, stands, Monitor.goto, Function.update_self]
      cases c <;> simp [Cond.broadcasted]
  | unlocking =>
      simp only [monitorStep, stands, Monitor.goto, Function.update_self]
      simp
  | _ =>
      rw [stands] at holds
      cases holds

/-- With the mutex free, a thread that waits for it can go on. -/
theorem goesOn_of_free (free : s.owner = none) {i : τ} {call : QueueCall}
    (waits : s.pc i = .locking call ∨ s.pc i = .woken call) :
    GoesOn (visit monitorStep s ⟨i, .shutdown, fun _ => true⟩) := by
  rcases waits with stands | stands <;>
    simp [GoesOn, visit, monitorStep, stands, free, Monitor.goto, MonitorPc.active]

/-- No deadlock: somebody can go on, or everybody rests. -/
theorem goesOn_or_rests (valid : s.Valid) (awake : ShutdownAwake s.pc) :
    (∃ x, GoesOn (visit monitorStep s x)) ∨ ∀ i, s.Rests i := by
  by_cases going : ∃ x, GoesOn (visit monitorStep s x)
  · exact .inl going
  right
  have free : s.owner = none := by
    by_contra owned
    obtain ⟨i, owner⟩ := Option.ne_none_iff_exists'.mp owned
    exact going ⟨_, goesOn_of_holds ((valid.exclusive i).mpr owner)⟩
  have stands : ∀ i, s.pc i = .outside ∨ ∃ call, s.pc i = .parked call := by
    intro i
    have notHeld : (s.pc i).holds ≠ true := fun holds => going ⟨_, goesOn_of_holds holds⟩
    cases stands : s.pc i with
    | outside => exact .inl rfl
    | parked call => exact .inr ⟨call, rfl⟩
    | locking call => exact absurd ⟨_, goesOn_of_free free (.inl stands)⟩ going
    | woken call => exact absurd ⟨_, goesOn_of_free free (.inr stands)⟩ going
    | _ =>
        rw [stands] at notHeld
        exact absurd rfl notHeld
  have asleep : ∀ c, population (fun i => (s.pc i).wokenFrom c) = 0 := by
    intro c
    apply population_eq_zero.mpr
    intro i
    rcases stands i with outside | ⟨call, parked⟩
    · rw [outside]
      cases c <;> rfl
    · rw [parked]
      cases c <;> rfl
  have nothing : ∀ c, (∃ i, (s.pc i).waitsOn c = true) →
      s.queue.closed = false ∧ s.queue.available c = 0 := by
    intro c waits
    obtain ⟨isOpen, enough⟩ := valid.spoken_for free waits
    rw [asleep] at enough
    exact ⟨isOpen, Nat.le_zero.mp enough⟩
  intro i
  rcases stands i with outside | ⟨call, parked⟩
  · exact .inl outside
  · right
    cases call with
    | push b inside =>
        have waits : (s.pc i).waitsOn .notFull = true := by
          rw [parked]
          rfl
        obtain ⟨isOpen, full⟩ := nothing .notFull ⟨i, waits⟩
        have bounded : s.queue.count ≤ udsQueueCap := valid.queue.ring.bounded
        simp only [UdsQueue.available] at full
        exact ⟨isOpen, .inr ⟨waits, by omega⟩⟩
    | pop out =>
        have waits : (s.pc i).waitsOn .notEmpty = true := by
          rw [parked]
          rfl
        obtain ⟨isOpen, empty⟩ := nothing .notEmpty ⟨i, waits⟩
        exact ⟨isOpen, .inl ⟨waits, empty⟩⟩
    | shutdown => exact absurd parked (awake i)

theorem monitorRun_awake (inputs : List (MonitorInput τ)) :
    ShutdownAwake (monitorRun inputs).pc :=
  run_invariant monitorStep (P := fun s : Monitor τ => ShutdownAwake s.pc)
    (fun _ x awake => awake.step x) (by intro i; simp [Monitor.start]) inputs

/-- **The monitor settles.** From every reachable state, if no new call is made and no
thread wakes up by itself, `n` threads make at most `n (4 n + 5)` moves, and as long as not
every thread rests somebody can move. A thread rests outside, or parked for a reason: the
queue is open, and empty if the thread is a consumer, full if it is a producer. So a closed
queue lets everybody go. -/
theorem monitor_settles (past more : List (MonitorInput τ))
    (going : ∀ v ∈ trace monitorStep (monitorRun past) more, GoesOn v) :
    let s := run monitorStep (monitorRun past) more
    more.length ≤ Fintype.card τ * (4 * Fintype.card τ + 5) ∧
      ((∃ x, GoesOn (visit monitorStep s x)) ∨ ∀ i, s.Rests i) := by
  intro s
  have point : s = monitorRun (past ++ more) := (run_append ..).symm
  have falls : ∀ v ∈ trace monitorStep (monitorRun past) more,
      v.after.weight < v.before.weight := by
    intro v member
    obtain ⟨before, x, after, -, rfl⟩ := (mem_trace_iff monitorStep).mp member
    exact (going _ member).weight_lt
  have descent := length_le_of_descent monitorStep Monitor.weight falls
  refine ⟨?_, goesOn_or_rests (point ▸ monitorRun_valid _) (point ▸ monitorRun_awake _)⟩
  have start := (monitorRun past).weight_le
  omega

end Rest

/-- A consumer is parked and a thread is about to shut the queue down. -/
def beforeRelease : List (MonitorInput Bool) :=
  List.replicate 3 ⟨false, .pop .zero, fun _ => false⟩ ++ [⟨true, .shutdown, fun _ => false⟩]

/-- The shutdown up to its return, then the consumer. -/
def release : List (MonitorInput Bool) :=
  List.replicate 5 ⟨true, .shutdown, fun _ => false⟩ ++
    List.replicate 3 ⟨false, .shutdown, fun _ => false⟩

theorem monitor_settles_release :
    let s := run monitorStep (monitorRun beforeRelease) release
    release.length ≤ Fintype.card Bool * (4 * Fintype.card Bool + 5) ∧
      ((∃ x, GoesOn (visit monitorStep s x)) ∨ ∀ i, s.Rests i) := by
  have steps : (trace monitorStep (monitorRun beforeRelease) release).all (fun v =>
      (v.before.pc v.input.thread).active &&
        (v.after.pc v.input.thread).weight 0 != (v.before.pc v.input.thread).weight 0) = true := by
    decide +kernel
  apply monitor_settles beforeRelease release
  intro v member
  have step := List.all_eq_true.mp steps v member
  simp only [Bool.and_eq_true, bne_iff_ne] at step
  exact ⟨step.1, fun same => step.2 (congrArg (MonitorPc.weight 0) same)⟩

end VecuUds
