import Mathlib.Logic.Function.Basic
import VecuUds.Foundation.Trace

/-!
# Calls that overlap and calls that do not

Threads call an object, and a history records when a call is made and when it returns,
and with what. The history is linearizable if the calls can be put in one order in which
a sequential machine answers them as they were answered, each thread's calls stay in
their order, and no call comes before one that had returned before it was made. A call
that has not returned may be in the order or not.

The atomic object has such histories by construction: between its call and its return
every call acts once, on the sequential machine, in a step of its own. An implementation
that the atomic object simulates is therefore linearizable, and its state is the one that
the order leads to.

Some replies of the sequential machine may mean that the call has to wait and try again.
The calls of an order are answered with replies that end a call.
-/

namespace Foundation

universe u v w x

/-- What the callers of an object see. -/
inductive CallEvent (τ : Type u) (ι : Type v) (ο : Type w) where
  | invoked (thread : τ) (call : ι)
  | returned (thread : τ) (reply : ο)

/-- A call that has been carried out. -/
structure Call (τ : Type u) (ι : Type v) (ο : Type w) where
  thread : τ
  input : ι
  output : ο

/-- How far a thread has got with a call. -/
inductive CallPhase (ι : Type v) (ο : Type w) where
  | idle
  | called (call : ι)
  | answered (call : ι) (reply : ο)

variable {τ : Type u} {ι : Type v} {ο : Type w} {σ : Type x}

def CallEvent.thread : CallEvent τ ι ο → τ
  | .invoked t _ => t
  | .returned t _ => t

def CallEvent.isInvoked : CallEvent τ ι ο → Bool
  | .invoked _ _ => true
  | .returned _ _ => false

@[simp] theorem CallEvent.isInvoked_invoked (t : τ) (call : ι) :
    (CallEvent.invoked t call : CallEvent τ ι ο).isInvoked = true := rfl

@[simp] theorem CallEvent.isInvoked_returned (t : τ) (reply : ο) :
    (CallEvent.returned t reply : CallEvent τ ι ο).isInvoked = false := rfl

/-- The two events of a call that has returned. -/
def Call.events (c : Call τ ι ο) : List (CallEvent τ ι ο) :=
  [.invoked c.thread c.input, .returned c.thread c.output]

/-! ## Linearizations -/

/-- The events of one thread are those of its calls, one after another, up to a last call
that is still open. -/
inductive Sequential (t : τ) : List (Call τ ι ο) → List (CallEvent τ ι ο) → CallPhase ι ο → Prop
  | idle (calls : List (Call τ ι ο)) : Sequential t calls (calls.flatMap Call.events) .idle
  | called (calls : List (Call τ ι ο)) (call : ι) :
      Sequential t calls (calls.flatMap Call.events ++ [.invoked t call]) (.called call)
  | answered (calls : List (Call τ ι ο)) (call : ι) (reply : ο) :
      Sequential t (calls ++ [⟨t, call, reply⟩]) (calls.flatMap Call.events ++ [.invoked t call])
        (.answered call reply)

section Order

variable [DecidableEq τ]

def eventsOf (t : τ) (history : List (CallEvent τ ι ο)) : List (CallEvent τ ι ο) :=
  history.filter fun e => e.thread = t

def callsOf (t : τ) (order : List (Call τ ι ο)) : List (Call τ ι ο) :=
  order.filter fun c => c.thread = t

/-- The number of calls that a thread has made. -/
def made (t : τ) (history : List (CallEvent τ ι ο)) : Nat :=
  (eventsOf t history).countP CallEvent.isInvoked

/-- The number of a thread's calls that have returned. -/
def finished (t : τ) (history : List (CallEvent τ ι ο)) : Nat :=
  (eventsOf t history).countP fun e => !e.isInvoked

/-- An order of calls that explains a history. By `realTime` the order can be cut at every
point of the history: the calls that have returned by then lie before the cut, the calls
that have not been made yet lie behind it. -/
structure Linearizes (step : σ → ι → σ × ο) (ends : ο → Prop) (s : σ)
    (history : List (CallEvent τ ι ο)) (order : List (Call τ ι ο)) : Prop where
  legal : (trace step s (order.map Call.input)).map Visit.output = order.map Call.output
  ended : ∀ c ∈ order, ends c.output
  threads : ∀ t, ∃ phase, Sequential t (callsOf t order) (eventsOf t history) phase
  realTime : ∀ past, past <+: history → ∃ before, before <+: order ∧
    ∀ t, finished t past ≤ (callsOf t before).length ∧ (callsOf t before).length ≤ made t past

end Order

/-- What is observed of a legal order is what is observed of the sequential run. -/
theorem filterMap_trace_of_legal {β : Type*} {step : σ → ι → σ × ο} {f : Visit σ ι ο → Option β}
    {g : Call τ ι ο → Option β} (same : ∀ v c, v.input = c.input → v.output = c.output → f v = g c)
    {s : σ} {order : List (Call τ ι ο)}
    (legal : (trace step s (order.map Call.input)).map Visit.output = order.map Call.output) :
    (trace step s (order.map Call.input)).filterMap f = order.filterMap g := by
  induction order generalizing s with
  | nil => rfl
  | cons c rest ih =>
      simp only [List.map_cons, trace_cons, List.cons.injEq] at legal ⊢
      obtain ⟨here, later⟩ := legal
      rw [List.filterMap_cons, List.filterMap_cons, ih later, same _ c rfl here]

/-! ## The atomic object -/

/-- A sequential machine and how far each thread has got with it. -/
structure Atomic (τ : Type u) (σ : Type x) (ι : Type v) (ο : Type w) where
  object : σ
  phase : τ → CallPhase ι ο

def Atomic.start (s : σ) : Atomic τ σ ι ο := ⟨s, fun _ => .idle⟩

section Steps

variable [DecidableEq τ]

def Atomic.goto (a : Atomic τ σ ι ο) (t : τ) (phase : CallPhase ι ο) : Atomic τ σ ι ο :=
  { a with phase := Function.update a.phase t phase }

/-- A step of the atomic object, with the events that its callers see. -/
inductive AtomicStep (step : σ → ι → σ × ο) (ends : ο → Prop) (a : Atomic τ σ ι ο) :
    List (CallEvent τ ι ο) → Atomic τ σ ι ο → Prop
  | stay : AtomicStep step ends a [] a
  | invoke {t : τ} (idle : a.phase t = .idle) (call : ι) :
      AtomicStep step ends a [.invoked t call] (a.goto t (.called call))
  | act {t : τ} {call : ι} (called : a.phase t = .called call)
      (ended : ends (step a.object call).2) :
      AtomicStep step ends a []
        ⟨(step a.object call).1,
          Function.update a.phase t (.answered call (step a.object call).2)⟩
  | return {t : τ} {call : ι} {reply : ο} (answered : a.phase t = .answered call reply) :
      AtomicStep step ends a [.returned t reply] (a.goto t .idle)

end Steps

/-! ## Counting calls -/

section Counting

variable [DecidableEq τ]

@[simp] theorem eventsOf_append (t : τ) (first second : List (CallEvent τ ι ο)) :
    eventsOf t (first ++ second) = eventsOf t first ++ eventsOf t second :=
  List.filter_append ..

@[simp] theorem callsOf_append (t : τ) (first second : List (Call τ ι ο)) :
    callsOf t (first ++ second) = callsOf t first ++ callsOf t second :=
  List.filter_append ..

omit [DecidableEq τ] in
/-- What has been carried out lies between what has returned and what has been made. -/
theorem Sequential.counts {t : τ} {calls : List (Call τ ι ο)} {events : List (CallEvent τ ι ο)}
    {phase : CallPhase ι ο} (sequential : Sequential t calls events phase) :
    events.countP (fun e => !e.isInvoked) ≤ calls.length ∧
      calls.length ≤ events.countP CallEvent.isInvoked := by
  have pairs : ∀ calls : List (Call τ ι ο),
      (calls.flatMap Call.events).countP (fun e => !e.isInvoked) = calls.length ∧
        (calls.flatMap Call.events).countP CallEvent.isInvoked = calls.length := by
    intro calls
    induction calls with
    | nil => exact ⟨rfl, rfl⟩
    | cons c rest ih =>
        obtain ⟨returns, invokes⟩ := ih
        rw [List.flatMap_cons, List.countP_append, List.countP_append, returns, invokes]
        exact ⟨Nat.add_comm 1 _, Nat.add_comm 1 _⟩
  cases sequential with
  | idle calls => exact ⟨Nat.le_of_eq (pairs calls).1, Nat.le_of_eq (pairs calls).2.symm⟩
  | called calls call => simp [(pairs calls).1, (pairs calls).2]
  | answered earlier call reply => simp [(pairs earlier).1, (pairs earlier).2]

end Counting

/-! ## The atomic object is linearizable -/

section Recording

variable [DecidableEq τ] {step : σ → ι → σ × ο} {ends : ο → Prop} {s : σ}
variable {history : List (CallEvent τ ι ο)} {order : List (Call τ ι ο)} {a a' : Atomic τ σ ι ο}

/-- An order explains a history and leads to the present state of the atomic object. -/
structure Records (step : σ → ι → σ × ο) (ends : ο → Prop) (s : σ)
    (history : List (CallEvent τ ι ο)) (order : List (Call τ ι ο)) (a : Atomic τ σ ι ο) :
    Prop where
  linearizes : Linearizes step ends s history order
  object : a.object = run step s (order.map Call.input)
  phases : ∀ t, Sequential t (callsOf t order) (eventsOf t history) (a.phase t)

theorem Records.start (s : σ) : Records step ends s [] [] (.start s : Atomic τ σ ι ο) where
  linearizes :=
    { legal := rfl
      ended := by simp
      threads := fun t => ⟨.idle, .idle []⟩
      realTime := by
        intro past initial
        rw [List.prefix_nil.mp initial]
        exact ⟨[], List.nil_prefix, fun _ => ⟨Nat.le_refl 0, Nat.le_refl 0⟩⟩ }
  object := rfl
  phases := fun _ => .idle []

/-- A longer history is explained by a longer order if the threads are, and the order is
a run that leads to the present state. The end of the history is cut at the end of the
order. -/
theorem Records.extend (records : Records step ends s history order a)
    (events : List (CallEvent τ ι ο)) (short : events.length ≤ 1) (calls : List (Call τ ι ο))
    (legal : (trace step s ((order ++ calls).map Call.input)).map Visit.output =
      (order ++ calls).map Call.output)
    (ended : ∀ c ∈ calls, ends c.output)
    (object : a'.object = run step s ((order ++ calls).map Call.input))
    (phases : ∀ t, Sequential t (callsOf t (order ++ calls)) (eventsOf t (history ++ events))
      (a'.phase t)) :
    Records step ends s (history ++ events) (order ++ calls) a' := by
  refine ⟨⟨legal, ?_, fun t => ⟨_, phases t⟩, ?_⟩, object, phases⟩
  · intro c member
    rcases List.mem_append.mp member with old | new
    · exact records.linearizes.ended c old
    · exact ended c new
  · intro past initial
    by_cases whole : past = history ++ events
    · subst whole
      exact ⟨order ++ calls, List.prefix_rfl, fun t => (phases t).counts⟩
    · have earlier : past <+: history := by
        apply List.prefix_of_prefix_length_le initial (List.prefix_append history events)
        have proper : past.length ≠ (history ++ events).length := fun same =>
          whole (initial.eq_of_length same)
        have bounded := initial.length_le
        rw [List.length_append] at proper bounded
        omega
      obtain ⟨before, cut, counts⟩ := records.linearizes.realTime past earlier
      exact ⟨before, cut.trans (List.prefix_append order calls), counts⟩

/-- One thread moves: only its calls, events and phase change. -/
theorem Records.phases_update (records : Records step ends s history order a) {t : τ}
    {events : List (CallEvent τ ι ο)} {calls : List (Call τ ι ο)} {phase : CallPhase ι ο}
    (ownEvents : ∀ e ∈ events, e.thread = t) (ownCalls : ∀ c ∈ calls, c.thread = t)
    (moved : Sequential t (callsOf t order ++ calls) (eventsOf t history ++ events) phase) :
    ∀ u, Sequential u (callsOf u (order ++ calls)) (eventsOf u (history ++ events))
      (Function.update a.phase t phase u) := by
  intro u
  rw [callsOf_append, eventsOf_append]
  by_cases same : u = t
  · subst same
    have calls : callsOf u calls = calls := by
      simpa [callsOf, List.filter_eq_self] using ownCalls
    have events : eventsOf u events = events := by
      simpa [eventsOf, List.filter_eq_self] using ownEvents
    rw [Function.update_self, calls, events]
    exact moved
  · have calls : callsOf u calls = [] := by
      rw [callsOf, List.filter_eq_nil_iff]
      intro c member
      simpa [ownCalls c member] using Ne.symm same
    have events : eventsOf u events = [] := by
      rw [eventsOf, List.filter_eq_nil_iff]
      intro e member
      simpa [ownEvents e member] using Ne.symm same
    rw [Function.update_of_ne same, calls, events, List.append_nil, List.append_nil]
    exact records.phases u

/-- Every step extends the order, by the call that acts in it if one does. -/
theorem Records.next (records : Records step ends s history order a)
    {events : List (CallEvent τ ι ο)} (steps : AtomicStep step ends a events a') :
    ∃ order', Records step ends s (history ++ events) order' a' := by
  have legal := records.linearizes.legal
  cases steps with
  | stay =>
      refine ⟨order, ?_⟩
      rw [List.append_nil]
      exact records
  | @invoke t idle call =>
      have stands := records.phases t
      rw [idle] at stands
      have moved : Sequential t (callsOf t order ++ [])
          (eventsOf t history ++ [.invoked t call]) (.called call) := by
        generalize callsOf t order = calls, eventsOf t history = past at stands
        cases stands
        rw [List.append_nil]
        exact .called _ call
      refine ⟨order ++ [],
        records.extend [.invoked t call] (Nat.le_refl 1) [] ?_ (by simp) ?_ ?_⟩
      · rw [List.append_nil]
        exact legal
      · rw [List.append_nil]
        exact records.object
      · exact records.phases_update (by simp [CallEvent.thread]) (by simp) moved
  | @act t call called ended =>
      have stands := records.phases t
      rw [called] at stands
      have moved : Sequential t (callsOf t order ++ [⟨t, call, (step a.object call).2⟩])
          (eventsOf t history ++ []) (.answered call (step a.object call).2) := by
        generalize callsOf t order = calls, eventsOf t history = past at stands
        cases stands
        rw [List.append_nil]
        exact .answered _ call _
      refine ⟨order ++ [⟨t, call, (step a.object call).2⟩],
        records.extend [] (Nat.zero_le 1) [_] ?_ (by simpa using ended) ?_ ?_⟩
      · rw [List.map_append, trace_append, List.map_append, legal, ← records.object,
          List.map_append]
        rfl
      · rw [List.map_append, run_append, ← records.object]
        rfl
      · exact records.phases_update (by simp) (by simp) moved
  | @«return» t call reply answered =>
      have stands := records.phases t
      rw [answered] at stands
      have moved : Sequential t (callsOf t order ++ [])
          (eventsOf t history ++ [.returned t reply]) .idle := by
        generalize callsOf t order = calls, eventsOf t history = past at stands
        cases stands with
        | answered earlier =>
            have closed := Sequential.idle (t := t) (earlier ++ [⟨t, call, reply⟩])
            simpa [Call.events] using closed
      refine ⟨order ++ [],
        records.extend [.returned t reply] (Nat.le_refl 1) [] ?_ (by simp) ?_ ?_⟩
      · rw [List.append_nil]
        exact legal
      · rw [List.append_nil]
        exact records.object
      · exact records.phases_update (by simp [CallEvent.thread]) (by simp) moved

/-- **Simulation.** An implementation whose steps are steps of the atomic object has
linearizable histories, and the order leads to the state it stands for. -/
theorem linearizes_of_simulation {ρ : Type*} {κ : Type*}
    {machine : ρ → κ → ρ × List (CallEvent τ ι ο)} {R : ρ → Atomic τ σ ι ο → Prop}
    (simulates : ∀ r k a, R r a →
      ∃ a', AtomicStep step ends a (machine r k).2 a' ∧ R (machine r k).1 a')
    {r : ρ} {s : σ} (start : R r (.start s)) (inputs : List κ) :
    ∃ order a, Linearizes step ends s ((trace machine r inputs).flatMap Visit.output) order ∧
      a.object = run step s (order.map Call.input) ∧ R (run machine r inputs) a := by
  have recorded : ∃ order a,
      Records step ends s ((trace machine r inputs).flatMap Visit.output) order a ∧
        R (run machine r inputs) a := by
    apply history_invariant machine
      (H := fun past r => ∃ order a,
        Records step ends s (past.flatMap Visit.output) order a ∧ R r a)
    · rintro past r k ⟨order, a, records, related⟩
      obtain ⟨a', steps, related⟩ := simulates r k a related
      obtain ⟨order', records⟩ := records.next steps
      refine ⟨order', a', ?_, related⟩
      rw [List.flatMap_append, List.flatMap_singleton]
      exact records
    · exact ⟨[], .start s, .start s, start⟩
  obtain ⟨order, a, records, related⟩ := recorded
  exact ⟨order, a, records.linearizes, records.object, related⟩

end Recording

end Foundation
