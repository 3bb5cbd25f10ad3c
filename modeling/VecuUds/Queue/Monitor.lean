import VecuUds.Foundation.Population
import VecuUds.Foundation.Trace
import VecuUds.Queue.Basic

/-!
# The queue as a monitor

Between the critical sections of `Queue.Basic` lies the traffic on the mutex and the two
condition variables: waiting for the mutex, parking, signals, broadcasts. Here every one
of these is a step, for any finite number of threads. `pthread_cond_wait` releases the
mutex and parks in one step; a signal wakes at least one parked thread, if there is any;
parked threads may also wake up by themselves; a woken thread competes for the mutex
with everybody else.

A thread that parks relies on being woken when things change for it. The invariant
counts what is available to the parked threads against those who are already on their
way to take it.
-/

namespace VecuUds

open Foundation

/-- The two condition variables. -/
inductive Cond where
  | notEmpty
  | notFull
  deriving DecidableEq, Repr

/-- A call that has passed the checks of its arguments. -/
inductive QueueCall where
  | push (b : Block) (inside : 1 ≤ b.len ∧ b.len ≤ udsMaxMsgLen)
  | pop (out : UdsMsg)
  | shutdown

/-- Where a thread stands. From `testing` to `unlocking` it holds the mutex. -/
inductive MonitorPc where
  | outside
  | locking (call : QueueCall)
  | testing (call : QueueCall)
  | parked (call : QueueCall)
  | woken (call : QueueCall)
  | signalling (c : Cond)
  | broadcasting (c : Cond)
  | unlocking

namespace MonitorPc

/-- Parked on this condition variable and not woken yet. -/
def waitsOn : Cond → MonitorPc → Bool
  | .notEmpty, .parked (.pop _) => true
  | .notFull, .parked (.push _ _) => true
  | _, _ => false

/-- Woken from this condition variable and not back in the monitor. -/
def wokenFrom : Cond → MonitorPc → Bool
  | .notEmpty, .woken (.pop _) => true
  | .notFull, .woken (.push _ _) => true
  | _, _ => false

/-- In the monitor, about to take what the condition is about or to signal it. -/
def attends : Cond → MonitorPc → Bool
  | .notEmpty, .testing (.pop _) => true
  | .notFull, .testing (.push _ _) => true
  | c, .signalling c' => c = c'
  | _, _ => false

/-- In a shutdown that has yet to broadcast this condition. -/
def announces : Cond → MonitorPc → Bool
  | _, .broadcasting .notEmpty => true
  | .notFull, .broadcasting .notFull => true
  | _, _ => false

def holds : MonitorPc → Bool
  | .testing _ => true
  | .signalling _ => true
  | .broadcasting _ => true
  | .unlocking => true
  | _ => false

/-- Wake a thread that is parked on this condition variable, if the wake-up reaches it. -/
def wake (c : Cond) (reached : Bool) (pc : MonitorPc) : MonitorPc :=
  match pc with
  | .parked call => if pc.waitsOn c && reached then .woken call else pc
  | _ => pc

end MonitorPc

/-- Where a shutdown stands after it has broadcast this condition. -/
def Cond.broadcasted : Cond → MonitorPc
  | .notEmpty => .broadcasting .notFull
  | .notFull => .unlocking

/-- The queue, the owner of its mutex and the threads. -/
structure Monitor (τ : Type) where
  queue : UdsQueue
  owner : Option τ
  pc : τ → MonitorPc

/-- The thread that moves next, the call it starts if it is outside, and the threads that
its signal reaches if it signals. -/
structure MonitorInput (τ : Type) where
  thread : τ
  call : QueueCall
  reached : τ → Bool

section Steps

variable {τ : Type} [Fintype τ] [DecidableEq τ]

/-- The chosen threads among those parked on the condition variable wake up. -/
def wakeUp (c : Cond) (reached : τ → Bool) (pc : τ → MonitorPc) : τ → MonitorPc :=
  fun j => (pc j).wake c (reached j)

/-- A signal may not miss: it reaches a parked thread, or there is none. -/
def Reaches (c : Cond) (reached : τ → Bool) (pc : τ → MonitorPc) : Prop :=
  (∃ j, ((pc j).waitsOn c && reached j) = true) ∨ ∀ j, (pc j).waitsOn c = false

instance (c : Cond) (reached : τ → Bool) (pc : τ → MonitorPc) : Decidable (Reaches c reached pc) :=
  inferInstanceAs (Decidable (_ ∨ _))

def Monitor.goto (s : Monitor τ) (i : τ) (pc : MonitorPc) : Monitor τ :=
  { s with pc := Function.update s.pc i pc }

/-- The section behind `pthread_mutex_lock`, up to the signal or the wait. -/
def monitorTest (s : Monitor τ) (i : τ) : QueueCall → Monitor τ
  | .push b inside =>
      let r := udsQueuePush s.queue b
      match r.2 with
      | .wait => ⟨r.1, none, Function.update s.pc i (.parked (.push b inside))⟩
      | .done rc _ =>
          { s with queue := r.1 }.goto i (if rc = 0 then .signalling .notEmpty else .unlocking)
  | .pop out =>
      let r := udsQueuePopBlocking s.queue out
      match r.2 with
      | .wait => ⟨r.1, none, Function.update s.pc i (.parked (.pop out))⟩
      | .done rc _ =>
          { s with queue := r.1 }.goto i (if rc = 0 then .signalling .notFull else .unlocking)
  | .shutdown => { s with queue := udsQueueShutdown s.queue }.goto i (.broadcasting .notEmpty)

/-- One step of a thread. A step that is not enabled changes nothing. -/
def monitorStep (s : Monitor τ) (x : MonitorInput τ) : Monitor τ × Unit :=
  (match s.pc x.thread with
    | .outside => s.goto x.thread (.locking x.call)
    | .locking call =>
        if s.owner = none then { s with owner := some x.thread }.goto x.thread (.testing call)
        else s
    | .woken call =>
        if s.owner = none then { s with owner := some x.thread }.goto x.thread (.testing call)
        else s
    | .testing call => monitorTest s x.thread call
    | .parked call => s.goto x.thread (.woken call)
    | .signalling c =>
        if Reaches c x.reached s.pc then
          { s with pc := wakeUp c x.reached s.pc }.goto x.thread .unlocking
        else s
    | .broadcasting c =>
        { s with pc := wakeUp c (fun _ => true) s.pc }.goto x.thread c.broadcasted
    | .unlocking => { s with owner := none }.goto x.thread .outside, ())

/-- All threads outside a fresh queue. -/
def Monitor.start : Monitor τ := ⟨udsQueueInit, none, fun _ => .outside⟩

def monitorRun (inputs : List (MonitorInput τ)) : Monitor τ := run monitorStep .start inputs

end Steps

/-! ## The invariant -/

/-- What is there for the threads that wait on a condition: messages, or free slots. -/
def UdsQueue.available (q : UdsQueue) : Cond → Nat
  | .notEmpty => q.count
  | .notFull => udsQueueCap - q.count

section Invariant

variable {τ : Type} [Fintype τ] [DecidableEq τ]

/-- Nobody is parked on the condition; or the queue is open and everything available is
spoken for by a thread on its way; or the broadcast that will wake everybody is due. -/
def Monitor.Alert (s : Monitor τ) (c : Cond) : Prop :=
  population (fun i => (s.pc i).waitsOn c) = 0 ∨
    (s.queue.closed = false ∧
      s.queue.available c ≤
        population (fun i => (s.pc i).wokenFrom c) + population (fun i => (s.pc i).attends c)) ∨
    (s.queue.closed = true ∧ ∃ i, (s.pc i).announces c = true)

/-- The owner of the mutex is the one thread inside the monitor. -/
def Exclusive (owner : Option τ) (pc : τ → MonitorPc) : Prop :=
  ∀ i, (pc i).holds = true ↔ owner = some i

structure Monitor.Valid (s : Monitor τ) : Prop where
  queue : s.queue.Valid
  exclusive : Exclusive s.owner s.pc
  alert : ∀ c, s.Alert c

end Invariant

/-! ## What a wake-up changes -/

namespace MonitorPc

variable (c : Cond) (r : Bool) (pc : MonitorPc)

@[simp] theorem holds_wake : (pc.wake c r).holds = pc.holds := by
  cases pc with
  | parked call => cases call <;> cases c <;> cases r <;> rfl
  | _ => rfl

@[simp] theorem attends_wake (d : Cond) : (pc.wake c r).attends d = pc.attends d := by
  cases pc with
  | parked call => cases call <;> cases c <;> cases d <;> cases r <;> rfl
  | _ => rfl

@[simp] theorem announces_wake (d : Cond) : (pc.wake c r).announces d = pc.announces d := by
  cases pc with
  | parked call => cases call <;> cases c <;> cases d <;> cases r <;> rfl
  | _ => rfl

/-- Whoever leaves the parked threads joins the woken ones. -/
theorem wake_transfer (d : Cond) :
    ((pc.wake c r).waitsOn d).toNat + ((pc.wake c r).wokenFrom d).toNat =
      (pc.waitsOn d).toNat + (pc.wokenFrom d).toNat := by
  cases pc with
  | parked call => cases call <;> cases c <;> cases d <;> cases r <;> rfl
  | _ => rfl

theorem waitsOn_wake_self : (pc.wake c r).waitsOn c = (pc.waitsOn c && !r) := by
  cases pc with
  | parked call => cases call <;> cases c <;> cases r <;> rfl
  | _ => cases c <;> rfl

variable {c}

theorem waitsOn_wake_other {d : Cond} (other : d ≠ c) : (pc.wake c r).waitsOn d = pc.waitsOn d := by
  cases pc with
  | parked call =>
      cases call <;> cases c <;> cases d <;> cases r <;> first | rfl | exact absurd rfl other
  | _ => rfl

theorem wokenFrom_wake_other {d : Cond} (other : d ≠ c) :
    (pc.wake c r).wokenFrom d = pc.wokenFrom d := by
  cases pc with
  | parked call =>
      cases call <;> cases c <;> cases d <;> cases r <;> first | rfl | exact absurd rfl other
  | _ => rfl

end MonitorPc

/-! ## Steps preserve the invariant -/

section Alert

variable {τ : Type} [Fintype τ] {s : Monitor τ} {c : Cond}

/-- A wake-up on the other condition variable is none of this one's business. -/
theorem Monitor.Alert.wakeUp_other (alert : s.Alert c) {d : Cond} (other : c ≠ d)
    (reached : τ → Bool) : Monitor.Alert { s with pc := wakeUp d reached s.pc } c := by
  have waits : ∀ j, ((s.pc j).wake d (reached j)).waitsOn c = (s.pc j).waitsOn c :=
    fun j => MonitorPc.waitsOn_wake_other _ _ other
  have woken : ∀ j, ((s.pc j).wake d (reached j)).wokenFrom c = (s.pc j).wokenFrom c :=
    fun j => MonitorPc.wokenFrom_wake_other _ _ other
  simpa [Monitor.Alert, wakeUp, waits, woken] using alert

variable [DecidableEq τ] {i : τ} {a b : MonitorPc}

/-- One thread moves on its own. What becomes available must be matched by the thread's
new place, and a thread may park only if there is nothing for it. -/
theorem Monitor.Alert.move (alert : s.Alert c) (stands : s.pc i = a) {q : UdsQueue}
    (owner : Option τ) (closed : q.closed = s.queue.closed)
    (matched : q.closed = false → b.waitsOn c = false →
      q.available c + (a.wokenFrom c).toNat + (a.attends c).toNat ≤
        s.queue.available c + (b.wokenFrom c).toNat + (b.attends c).toNat)
    (parks : b.waitsOn c = true → q.closed = false ∧ q.available c = 0)
    (announced : a.announces c = true → b.announces c = true) :
    Monitor.Alert ⟨q, owner, Function.update s.pc i b⟩ c := by
  have others : ∀ (kind : MonitorPc → Bool) (j : τ), j ≠ i →
      kind (Function.update s.pc i b j) = kind (s.pc j) := by
    intro kind j ne
    rw [Function.update_of_ne ne]
  have waits := population_update i (others (MonitorPc.waitsOn c))
  have woken := population_update i (others (MonitorPc.wokenFrom c))
  have attends := population_update i (others (MonitorPc.attends c))
  simp only [Function.update_self, stands] at waits woken attends
  cases parking : b.waitsOn c with
  | true =>
      obtain ⟨isOpen, nothing⟩ := parks parking
      refine .inr (.inl ⟨isOpen, ?_⟩)
      change q.available c ≤ _
      rw [nothing]
      exact Nat.zero_le _
  | false =>
      rw [parking] at waits
      simp only [Bool.toNat_false] at waits
      rcases alert with nobody | ⟨isOpen, enough⟩ | ⟨shut, j, announces⟩
      · left
        change population (fun j => (Function.update s.pc i b j).waitsOn c) = 0
        omega
      · refine .inr (.inl ⟨closed.trans isOpen, ?_⟩)
        have balance := matched (closed.trans isOpen) parking
        change q.available c ≤ population (fun j => (Function.update s.pc i b j).wokenFrom c) +
          population (fun j => (Function.update s.pc i b j).attends c)
        omega
      · refine .inr (.inr ⟨closed.trans shut, ?_⟩)
        by_cases same : j = i
        · subst same
          rw [stands] at announces
          exact ⟨j, by simpa using announced announces⟩
        · exact ⟨j, by simpa [Function.update_of_ne same] using announces⟩

/-- A signal that finds somebody parked gets somebody on the way. -/
theorem Monitor.Alert.signal (alert : s.Alert c) {reached : τ → Bool}
    (signals : s.pc i = .signalling c) (reaches : Reaches c reached s.pc) :
    Monitor.Alert ({ s with pc := wakeUp c reached s.pc }.goto i .unlocking) c := by
  let pc := Function.update (wakeUp c reached s.pc) i .unlocking
  have here : pc i = .unlocking := Function.update_self ..
  have there : ∀ j, j ≠ i → pc j = (s.pc j).wake c (reached j) :=
    fun j ne => Function.update_of_ne ne ..
  have waits : ∀ j, (pc j).waitsOn c = ((s.pc j).waitsOn c && !reached j) := by
    intro j
    by_cases same : j = i
    · rw [same, here, signals]
      cases c <;> rfl
    · rw [there j same, MonitorPc.waitsOn_wake_self]
  rcases reaches with ⟨j, found⟩ | nobody
  · obtain ⟨waiting, hit⟩ : (s.pc j).waitsOn c = true ∧ reached j = true := by
      simpa using found
    have fewer : population (fun j => (pc j).waitsOn c) <
        population (fun j => (s.pc j).waitsOn c) := by
      apply population_lt (i := j)
      · intro k still
        rw [waits k, Bool.and_eq_true] at still
        exact still.1
      · exact waiting
      · rw [waits j, hit]
        simp
    have moved : population (fun j => (pc j).waitsOn c) + population (fun j => (pc j).wokenFrom c) =
        population (fun j => (s.pc j).waitsOn c) + population (fun j => (s.pc j).wokenFrom c) := by
      apply population_transfer
      intro k
      by_cases same : k = i
      · rw [same, here, signals]
        cases c <;> rfl
      · rw [there k same]
        exact MonitorPc.wake_transfer c _ _ c
    have attends : population (fun j => (pc j).attends c) + 1 =
        population (fun j => (s.pc j).attends c) := by
      have update := population_update (p := fun j => (s.pc j).attends c)
        (q := fun j => (pc j).attends c) i (by
          intro k ne
          rw [there k ne, MonitorPc.attends_wake])
      have before : (s.pc i).attends c = true := by
        rw [signals]
        cases c <;> rfl
      have after : (pc i).attends c = false := by
        rw [here]
        cases c <;> rfl
      simpa [before, after] using update
    rcases alert with none | ⟨isOpen, enough⟩ | ⟨shut, k, announces⟩
    · omega
    · refine .inr (.inl ⟨isOpen, ?_⟩)
      change s.queue.available c ≤
        population (fun j => (pc j).wokenFrom c) + population (fun j => (pc j).attends c)
      omega
    · refine .inr (.inr ⟨shut, k, ?_⟩)
      have elsewhere : k ≠ i := by
        intro same
        rw [same, signals] at announces
        cases c <;> cases announces
      change (pc k).announces c = true
      rw [there k elsewhere, MonitorPc.announces_wake]
      exact announces
  · left
    apply population_eq_zero.mpr
    intro j
    change (pc j).waitsOn c = false
    rw [waits j, nobody j]
    rfl

/-- A broadcast leaves nobody parked. -/
theorem Monitor.Alert.broadcast (awake : b.waitsOn c = false) :
    Monitor.Alert ({ s with pc := wakeUp c (fun _ => true) s.pc }.goto i b) c := by
  left
  rw [population_eq_zero]
  intro j
  by_cases same : j = i
  · subst same
    simpa [Monitor.goto] using awake
  · simp [Monitor.goto, Function.update_of_ne same, wakeUp, MonitorPc.waitsOn_wake_self]

end Alert

section Exclusion

variable {τ : Type} {owner : Option τ} {pc pc' : τ → MonitorPc} {i : τ} {b : MonitorPc}

theorem Exclusive.keep (exclusive : Exclusive owner pc)
    (same : ∀ j, (pc' j).holds = (pc j).holds) : Exclusive owner pc' := by
  intro j
  rw [same j]
  exact exclusive j

variable [DecidableEq τ]

theorem Exclusive.goto (exclusive : Exclusive owner pc) (same : b.holds = (pc i).holds) :
    Exclusive owner (Function.update pc i b) := by
  apply exclusive.keep
  intro j
  by_cases here : j = i
  · rw [here, Function.update_self, same]
  · rw [Function.update_of_ne here]

theorem Exclusive.acquire (exclusive : Exclusive none pc) (inside : b.holds = true) :
    Exclusive (some i) (Function.update pc i b) := by
  intro j
  by_cases here : j = i
  · rw [here, Function.update_self]
    simp [inside]
  · rw [Function.update_of_ne here, exclusive j]
    simp [Ne.symm here]

theorem Exclusive.release (exclusive : Exclusive owner pc) (held : (pc i).holds = true)
    (outside : b.holds = false) : Exclusive none (Function.update pc i b) := by
  intro j
  by_cases here : j = i
  · rw [here, Function.update_self]
    simp [outside]
  · rw [Function.update_of_ne here, exclusive j, (exclusive i).mp held]
    simp [Ne.symm here]

end Exclusion

section Valid

variable {τ : Type} [Fintype τ] [DecidableEq τ] {s : Monitor τ} {i : τ}

/-- A step that leaves the queue alone and does not park. -/
theorem Monitor.Valid.goto (valid : s.Valid) {a b : MonitorPc} (stands : s.pc i = a)
    {owner : Option τ} (exclusive : Exclusive owner (Function.update s.pc i b))
    (matched : ∀ c, (a.wokenFrom c).toNat + (a.attends c).toNat ≤
      (b.wokenFrom c).toNat + (b.attends c).toNat)
    (awake : ∀ c, b.waitsOn c = false) (announced : ∀ c, a.announces c = false) :
    Monitor.Valid ⟨s.queue, owner, Function.update s.pc i b⟩ := by
  refine ⟨valid.queue, exclusive, ?_⟩
  intro c
  apply (valid.alert c).move stands owner rfl
  · intro _ _
    have := matched c
    omega
  · intro parks
    exact absurd ((awake c).symm.trans parks) Bool.false_ne_true
  · intro announces
    exact absurd ((announced c).symm.trans announces) Bool.false_ne_true

theorem Monitor.Valid.push (valid : s.Valid) {b : Block}
    {inside : 1 ≤ b.len ∧ b.len ≤ udsMaxMsgLen} (tests : s.pc i = .testing (.push b inside)) :
    (monitorTest s i (.push b inside)).Valid := by
  have held : (s.pc i).holds = true := by rw [tests]; rfl
  have effect := udsQueuePush_effect valid.queue b
  simp only [monitorTest]
  generalize udsQueuePush s.queue b = r at effect ⊢
  obtain ⟨q, result⟩ := r
  dsimp only at effect ⊢
  cases effect with
  | invalid outside => omega
  | full isOpen full =>
      refine ⟨valid.queue, valid.exclusive.release held rfl, ?_⟩
      intro c
      apply (valid.alert c).move tests none rfl
      · intro _ awake
        cases c with
        | notEmpty => exact Nat.le_refl _
        | notFull => cases awake
      · intro parks
        cases c with
        | notEmpty => cases parks
        | notFull => exact ⟨isOpen, by simp [UdsQueue.available, full]⟩
      · intro announces
        cases c <;> cases announces
  | closed closed =>
      refine ⟨valid.queue, valid.exclusive.goto (by rw [held]; rfl), ?_⟩
      intro c
      apply (valid.alert c).move tests s.owner rfl
      · intro isOpen
        exact absurd (isOpen.symm.trans closed) Bool.false_ne_true
      · intro parks
        cases c <;> cases parks
      · intro announces
        cases c <;> cases announces
  | pushed isOpen room _ valid' stillOpen appended =>
      have count : q.count = s.queue.count + 1 := by
        rw [← UdsQueue.length_messages, appended, List.length_append, UdsQueue.length_messages]
        rfl
      change Monitor.Valid ⟨q, s.owner, Function.update s.pc i (.signalling .notEmpty)⟩
      refine ⟨valid', valid.exclusive.goto (by rw [held]; rfl), ?_⟩
      intro c
      apply (valid.alert c).move tests s.owner (stillOpen.trans isOpen.symm)
      · intro _ _
        cases c with
        | notEmpty => simp [UdsQueue.available, MonitorPc.wokenFrom, MonitorPc.attends, count]
        | notFull =>
            simp only [UdsQueue.available, MonitorPc.wokenFrom, MonitorPc.attends, count,
              Bool.toNat_true, Bool.toNat_false]
            omega
      · intro parks
        cases c <;> cases parks
      · intro announces
        cases c <;> cases announces

theorem Monitor.Valid.pop (valid : s.Valid) {out : UdsMsg}
    (tests : s.pc i = .testing (.pop out)) : (monitorTest s i (.pop out)).Valid := by
  have held : (s.pc i).holds = true := by rw [tests]; rfl
  have effect := udsQueuePopBlocking_effect valid.queue out
  have bounded : s.queue.count ≤ udsQueueCap := valid.queue.ring.bounded
  simp only [monitorTest]
  generalize udsQueuePopBlocking s.queue out = r at effect ⊢
  obtain ⟨q, result⟩ := r
  dsimp only at effect ⊢
  cases effect with
  | empty isOpen empty =>
      have count : s.queue.count = 0 := UdsQueue.messages_eq_nil.mp empty
      refine ⟨valid.queue, valid.exclusive.release held rfl, ?_⟩
      intro c
      apply (valid.alert c).move tests none rfl
      · intro _ awake
        cases c with
        | notEmpty => cases awake
        | notFull => exact Nat.le_refl _
      · intro parks
        cases c with
        | notEmpty => exact ⟨isOpen, count⟩
        | notFull => cases parks
      · intro announces
        cases c <;> cases announces
  | drained closed empty =>
      refine ⟨valid.queue, valid.exclusive.goto (by rw [held]; rfl), ?_⟩
      intro c
      apply (valid.alert c).move tests s.owner rfl
      · intro isOpen
        exact absurd (isOpen.symm.trans closed) Bool.false_ne_true
      · intro parks
        cases c <;> cases parks
      · intro announces
        cases c <;> cases announces
  | popped valid' closed m _ oldest =>
      have count : s.queue.count = q.count + 1 := by
        rw [← UdsQueue.length_messages, oldest, List.length_cons, UdsQueue.length_messages]
      change Monitor.Valid ⟨q, s.owner, Function.update s.pc i (.signalling .notFull)⟩
      refine ⟨valid', valid.exclusive.goto (by rw [held]; rfl), ?_⟩
      intro c
      apply (valid.alert c).move tests s.owner closed
      · intro _ _
        cases c with
        | notEmpty => simp [UdsQueue.available, MonitorPc.wokenFrom, MonitorPc.attends, count]
        | notFull =>
            simp only [UdsQueue.available, MonitorPc.wokenFrom, MonitorPc.attends, count,
              Bool.toNat_true, Bool.toNat_false, decide_true]
            omega
      · intro parks
        cases c <;> cases parks
      · intro announces
        cases c <;> cases announces

/-- Shutdown owes both broadcasts from the moment it closes the queue. -/
theorem Monitor.Valid.shutdown (valid : s.Valid) (tests : s.pc i = .testing .shutdown) :
    (monitorTest s i .shutdown).Valid := by
  have held : (s.pc i).holds = true := by rw [tests]; rfl
  refine ⟨valid.queue.shutdown, valid.exclusive.goto (by rw [held]; rfl), ?_⟩
  intro c
  refine .inr (.inr ⟨rfl, i, ?_⟩)
  simp only [monitorTest, Monitor.goto, Function.update_self]
  cases c <;> rfl

theorem Monitor.Valid.signal (valid : s.Valid) {c : Cond} {reached : τ → Bool}
    (signals : s.pc i = .signalling c) (reaches : Reaches c reached s.pc) :
    ({ s with pc := wakeUp c reached s.pc }.goto i .unlocking).Valid := by
  have woken : Exclusive s.owner (wakeUp c reached s.pc) :=
    valid.exclusive.keep fun j => MonitorPc.holds_wake c (reached j) (s.pc j)
  have stands : wakeUp c reached s.pc i = .signalling c := by
    simp only [wakeUp, signals]
    rfl
  refine ⟨valid.queue, woken.goto (by rw [stands]; rfl), ?_⟩
  intro d
  by_cases own : d = c
  · rw [own]
    exact (valid.alert c).signal signals reaches
  · apply ((valid.alert d).wakeUp_other own reached).move stands s.owner rfl
    · intro _ _
      have elsewhere : (MonitorPc.signalling c).attends d = false := by
        cases d <;> simpa [MonitorPc.attends] using own
      rw [elsewhere]
      cases d <;> exact Nat.le_refl _
    · intro parks
      cases d <;> cases parks
    · intro announces
      cases d <;> cases announces

theorem Monitor.Valid.broadcast (valid : s.Valid) {c : Cond}
    (broadcasts : s.pc i = .broadcasting c) :
    ({ s with pc := wakeUp c (fun _ => true) s.pc }.goto i c.broadcasted).Valid := by
  have woken : Exclusive s.owner (wakeUp c (fun _ => true) s.pc) :=
    valid.exclusive.keep fun j => MonitorPc.holds_wake c true (s.pc j)
  have stands : wakeUp c (fun _ => true) s.pc i = .broadcasting c := by
    simp only [wakeUp, broadcasts]
    rfl
  refine ⟨valid.queue, woken.goto (by rw [stands]; cases c <;> rfl), ?_⟩
  intro d
  by_cases own : d = c
  · rw [own]
    exact Monitor.Alert.broadcast (by cases c <;> rfl)
  · apply ((valid.alert d).wakeUp_other own (fun _ => true)).move stands s.owner rfl
    · intro _ _
      cases c <;> cases d <;> exact Nat.le_refl _
    · intro parks
      cases c <;> cases d <;> cases parks
    · -- the shutdown still owes the second broadcast after the first
      intro announces
      cases c <;> cases d <;> first | exact absurd rfl own | rfl | cases announces

/-- A thread that takes the free mutex attends to what it was woken for. -/
theorem Monitor.Valid.lock (valid : s.Valid) (free : s.owner = none) {a : MonitorPc}
    {call : QueueCall} (stands : s.pc i = a) (waiting : a = .locking call ∨ a = .woken call) :
    ({ s with owner := some i }.goto i (.testing call)).Valid := by
  have exclusive : Exclusive none s.pc := free ▸ valid.exclusive
  apply valid.goto stands (exclusive.acquire rfl)
  · intro c
    rcases waiting with rfl | rfl <;> cases call <;> cases c <;>
      simp [MonitorPc.wokenFrom, MonitorPc.attends]
  · intro c
    cases c <;> rfl
  · intro c
    rcases waiting with rfl | rfl <;> cases c <;> rfl

theorem Monitor.Valid.step (valid : s.Valid) (x : MonitorInput τ) : (monitorStep s x).1.Valid := by
  cases stands : s.pc x.thread with
  | outside =>
      simp only [monitorStep, stands]
      apply valid.goto stands (valid.exclusive.goto (by rw [stands]; rfl))
      · intro c
        cases c <;> exact Nat.le_refl _
      · intro c
        cases c <;> rfl
      · intro c
        cases c <;> rfl
  | locking call =>
      simp only [monitorStep, stands]
      split_ifs with free
      · exact valid.lock free stands (.inl rfl)
      · exact valid
  | testing call =>
      simp only [monitorStep, stands]
      cases call with
      | push b inside => exact valid.push stands
      | pop out => exact valid.pop stands
      | shutdown => exact valid.shutdown stands
  | parked call =>
      -- a spurious wake-up
      simp only [monitorStep, stands]
      apply valid.goto stands (valid.exclusive.goto (by rw [stands]; rfl))
      · intro c
        cases call <;> cases c <;> simp [MonitorPc.wokenFrom, MonitorPc.attends]
      · intro c
        cases c <;> rfl
      · intro c
        cases c <;> rfl
  | woken call =>
      simp only [monitorStep, stands]
      split_ifs with free
      · exact valid.lock free stands (.inr rfl)
      · exact valid
  | signalling c =>
      simp only [monitorStep, stands]
      split_ifs with reaches
      · exact valid.signal stands reaches
      · exact valid
  | broadcasting c =>
      simp only [monitorStep, stands]
      exact valid.broadcast stands
  | unlocking =>
      simp only [monitorStep, stands]
      apply valid.goto stands (valid.exclusive.release (by rw [stands]; rfl) rfl)
      · intro c
        cases c <;> exact Nat.le_refl _
      · intro c
        cases c <;> rfl
      · intro c
        cases c <;> rfl

end Valid

/-! ## No lost wake-up -/

section Wakeup

variable {τ : Type} [Fintype τ] {s : Monitor τ}

theorem Monitor.Valid.start : (Monitor.start : Monitor τ).Valid where
  queue := .init
  exclusive := by simp [Exclusive, Monitor.start, MonitorPc.holds]
  alert := by
    intro c
    left
    apply population_eq_zero.mpr
    intro i
    cases c <;> rfl

/-- With the mutex free nobody attends to anything and no broadcast is due. -/
theorem Monitor.Valid.spoken_for (valid : s.Valid) (free : s.owner = none) {c : Cond}
    (waits : ∃ i, (s.pc i).waitsOn c = true) :
    s.queue.closed = false ∧
      s.queue.available c ≤ population (fun i => (s.pc i).wokenFrom c) := by
  have absent : ∀ i, (s.pc i).holds = false := by
    intro i
    cases held : (s.pc i).holds with
    | false => rfl
    | true => cases free.symm.trans ((valid.exclusive i).mp held)
  have unattended : population (fun i => (s.pc i).attends c) = 0 := by
    apply population_eq_zero.mpr
    intro i
    have := absent i
    cases stands : s.pc i with
    | testing call => simp [stands, MonitorPc.holds] at this
    | signalling d => simp [stands, MonitorPc.holds] at this
    | _ => cases c <;> rfl
  rcases valid.alert c with nobody | ⟨isOpen, enough⟩ | ⟨-, i, announces⟩
  · obtain ⟨i, waiting⟩ := waits
    exact absurd ((population_eq_zero.mp nobody i).symm.trans waiting) Bool.false_ne_true
  · exact ⟨isOpen, by omega⟩
  · have := absent i
    cases stands : s.pc i with
    | broadcasting d => simp [stands, MonitorPc.holds] at this
    | _ =>
        rw [stands] at announces
        cases c <;> cases announces

variable [DecidableEq τ]

theorem monitorRun_valid (inputs : List (MonitorInput τ)) : (monitorRun inputs).Valid :=
  run_invariant monitorStep (P := Monitor.Valid) (fun _ x valid => valid.step x) .start inputs

/-- **No lost wake-up.** In every schedule, whenever the mutex is free: if a consumer is
parked, the queue is open and holds at most as many messages as there are consumers
woken and not back yet; if a producer is parked, the queue is open and has at most as
many free slots as there are producers woken and not back yet. So when everybody inside
a call is parked, the queue is open, and empty if a consumer is among them, full if a
producer is. -/
theorem queue_no_lost_wakeup (inputs : List (MonitorInput τ)) :
    let s := monitorRun inputs
    (s.owner = none →
      ((∃ i, (s.pc i).waitsOn .notEmpty = true) → s.queue.closed = false ∧
        s.queue.count ≤ population (fun i => (s.pc i).wokenFrom .notEmpty)) ∧
      ((∃ i, (s.pc i).waitsOn .notFull = true) → s.queue.closed = false ∧
        udsQueueCap - s.queue.count ≤ population (fun i => (s.pc i).wokenFrom .notFull))) ∧
    ((∀ i, s.pc i = .outside ∨ ∃ call, s.pc i = .parked call) →
      ((∃ i, (s.pc i).waitsOn .notEmpty = true) →
        s.queue.closed = false ∧ s.queue.count = 0) ∧
      ((∃ i, (s.pc i).waitsOn .notFull = true) →
        s.queue.closed = false ∧ s.queue.count = udsQueueCap)) := by
  intro s
  have valid : s.Valid := monitorRun_valid inputs
  have bounded : s.queue.count ≤ udsQueueCap := valid.queue.ring.bounded
  refine ⟨fun free => ⟨valid.spoken_for free, valid.spoken_for free⟩, ?_⟩
  intro idle
  have free : s.owner = none := by
    cases owned : s.owner with
    | none => rfl
    | some i =>
        have held := (valid.exclusive i).mpr owned
        rcases idle i with outside | ⟨call, parked⟩
        · rw [outside] at held
          cases held
        · rw [parked] at held
          cases held
  have asleep : ∀ c, population (fun i => (s.pc i).wokenFrom c) = 0 := by
    intro c
    apply population_eq_zero.mpr
    intro i
    rcases idle i with outside | ⟨call, parked⟩
    · rw [outside]
      cases c <;> rfl
    · rw [parked]
      cases c <;> rfl
  constructor
  · intro waits
    obtain ⟨isOpen, enough⟩ := valid.spoken_for free waits
    rw [asleep] at enough
    exact ⟨isOpen, Nat.le_zero.mp enough⟩
  · intro waits
    obtain ⟨isOpen, enough⟩ := valid.spoken_for free waits
    rw [asleep] at enough
    change udsQueueCap - s.queue.count ≤ 0 at enough
    exact ⟨isOpen, by omega⟩

end Wakeup

/-- A consumer calls, takes the mutex and parks. -/
def parkedConsumer : List (MonitorInput Bool) :=
  List.replicate 3 ⟨false, .pop .zero, fun _ => false⟩

theorem queue_no_lost_wakeup_parked_consumer :
    ((monitorRun parkedConsumer).pc false).waitsOn .notEmpty = true ∧
      (monitorRun parkedConsumer).queue.closed = false ∧
      (monitorRun parkedConsumer).queue.count ≤
        population (fun i => ((monitorRun parkedConsumer).pc i).wokenFrom .notEmpty) := by
  have parked : ((monitorRun parkedConsumer).pc false).waitsOn .notEmpty = true := by
    decide +kernel
  have free : (monitorRun parkedConsumer).owner = none := by decide +kernel
  exact ⟨parked, ((queue_no_lost_wakeup parkedConsumer).1 free).1 ⟨false, parked⟩⟩

end VecuUds
