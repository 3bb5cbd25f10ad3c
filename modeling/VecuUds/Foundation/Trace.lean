import Mathlib.Data.List.Induction

/-!
# Recorded runs of a deterministic machine

A machine consumes one input at a time, moves to its next state and produces one
output. `trace` records every visit of a run, `run` only its final state. Both are
functions of the start state and the input list, so a property of every run is an
ordinary statement about lists of inputs, and a prefix of the inputs names a point
of the run.

The invariant rule and the history rule are the two ways in which later proofs use
a run: the first follows a predicate of states, the second a relation between the
recorded past and the state it leads to.
-/

namespace Foundation

universe u v w

/-- One recorded step, with the states on both sides of it. -/
structure Visit (σ : Type u) (ι : Type v) (ο : Type w) where
  before : σ
  input : ι
  output : ο
  after : σ

variable {σ : Type u} {ι : Type v} {ο : Type w} (step : σ → ι → σ × ο)

/-- The record of one step taken at `s`. -/
def visit (s : σ) (i : ι) : Visit σ ι ο := ⟨s, i, (step s i).2, (step s i).1⟩

/-- The state after all inputs. -/
def run : σ → List ι → σ
  | s, [] => s
  | s, i :: rest => run (step s i).1 rest

/-- Every visit of the run, in order. -/
def trace : σ → List ι → List (Visit σ ι ο)
  | _, [] => []
  | s, i :: rest => visit step s i :: trace (step s i).1 rest

@[simp] theorem run_nil (s : σ) : run step s [] = s := rfl

@[simp] theorem run_cons (s : σ) (i : ι) (rest : List ι) :
    run step s (i :: rest) = run step (step s i).1 rest := rfl

@[simp] theorem trace_nil (s : σ) : trace step s [] = [] := rfl

@[simp] theorem trace_cons (s : σ) (i : ι) (rest : List ι) :
    trace step s (i :: rest) = visit step s i :: trace step (step s i).1 rest := rfl

/-- Cutting the inputs cuts the run at the corresponding state. -/
theorem run_append (s : σ) (first second : List ι) :
    run step s (first ++ second) = run step (run step s first) second := by
  induction first generalizing s with
  | nil => rfl
  | cons i rest ih => simpa only [List.cons_append, run_cons] using ih (step s i).1

theorem trace_append (s : σ) (first second : List ι) :
    trace step s (first ++ second) =
      trace step s first ++ trace step (run step s first) second := by
  induction first generalizing s with
  | nil => rfl
  | cons i rest ih =>
      simp only [List.cons_append, trace_cons, run_cons, ih (step s i).1]

theorem run_snoc (s : σ) (past : List ι) (i : ι) :
    run step s (past ++ [i]) = (step (run step s past) i).1 := by
  rw [run_append]
  rfl

theorem trace_snoc (s : σ) (past : List ι) (i : ι) :
    trace step s (past ++ [i]) = trace step s past ++ [visit step (run step s past) i] := by
  rw [trace_append]
  rfl

/-- A recorded visit belongs to one input, taken at the state its past leads to. -/
theorem mem_trace_iff {s : σ} {inputs : List ι} {v : Visit σ ι ο} :
    v ∈ trace step s inputs ↔
      ∃ past i future, inputs = past ++ i :: future ∧ v = visit step (run step s past) i := by
  induction inputs generalizing s with
  | nil => simp
  | cons i rest ih =>
      rw [trace_cons, List.mem_cons, ih]
      constructor
      · rintro (rfl | ⟨past, j, future, rfl, rfl⟩)
        · exact ⟨[], i, rest, rfl, rfl⟩
        · exact ⟨i :: past, j, future, rfl, rfl⟩
      · rintro ⟨past, j, future, split, rfl⟩
        cases past with
        | nil =>
            obtain ⟨rfl, rfl⟩ := List.cons.inj split
            exact .inl rfl
        | cons k past =>
            obtain ⟨rfl, rfl⟩ := List.cons.inj split
            exact .inr ⟨past, j, future, rfl, rfl⟩

/-- A step-preserved predicate holds at the end of every run. -/
theorem run_invariant {P : σ → Prop} (preserved : ∀ s i, P s → P (step s i).1)
    {s : σ} (start : P s) (inputs : List ι) : P (run step s inputs) := by
  induction inputs generalizing s with
  | nil => exact start
  | cons i rest ih => exact ih (preserved s i start)

/-- The same rule for the runs whose visits all meet a condition. -/
theorem run_invariant_of_visits {P : σ → Prop} {C : Visit σ ι ο → Prop}
    (preserved : ∀ s i, P s → C (visit step s i) → P (step s i).1)
    {s : σ} (start : P s) (inputs : List ι) (all : ∀ v ∈ trace step s inputs, C v) :
    P (run step s inputs) := by
  induction inputs generalizing s with
  | nil => exact start
  | cons i rest ih =>
      have first : C (visit step s i) := all _ (by simp)
      exact ih (preserved s i start first) (fun v member => all v (by simp [member]))

/-- A relation between the recorded past and the present state, extended by each
step, relates the whole trace of a run to its final state. -/
theorem history_invariant {H : List (Visit σ ι ο) → σ → Prop}
    (preserved : ∀ past s i, H past s → H (past ++ [visit step s i]) (step s i).1)
    {s : σ} (start : H [] s) (inputs : List ι) :
    H (trace step s inputs) (run step s inputs) := by
  induction inputs using List.reverseRecOn with
  | nil => exact start
  | append_singleton past i ih =>
      rw [trace_snoc, run_snoc]
      exact preserved _ _ i ih

/-- Unless a run stands where it began, some input has brought it to where it stands, and
no later one has moved it. -/
theorem exists_last_move (s : σ) (inputs : List ι) (moved : run step s inputs ≠ s) :
    ∃ past i rest, inputs = past ++ i :: rest ∧ run step s past ≠ run step s inputs ∧
      (step (run step s past) i).1 = run step s inputs ∧
      ∀ v ∈ trace step (run step s inputs) rest,
        v = visit step (run step s inputs) v.input ∧ v.after = run step s inputs := by
  induction inputs using List.reverseRecOn with
  | nil => exact absurd rfl moved
  | append_singleton earlier i ih =>
      rw [run_snoc] at moved ⊢
      by_cases still : (step (run step s earlier) i).1 = run step s earlier
      · rw [still] at moved ⊢
        obtain ⟨past, j, rest, split, other, arrived, resting⟩ := ih moved
        have there : run step (run step s earlier) rest = run step s earlier := by
          conv_rhs => rw [split, run_append, run_cons, arrived]
        refine ⟨past, j, rest ++ [i], ?_, other, arrived, ?_⟩
        · rw [split, List.append_assoc, List.cons_append]
        · intro v member
          rw [trace_snoc, there, List.mem_append, List.mem_singleton] at member
          rcases member with before | rfl
          · exact resting v before
          · exact ⟨rfl, still⟩
      · exact ⟨earlier, i, [], rfl, fun same => still same.symm, rfl, by simp⟩

/-- The summand of `List.countP`, as a number. -/
theorem ite_eq_toNat (b : Bool) : (if b = true then 1 else 0) = b.toNat := by
  cases b <;> rfl

/-- Amortised count: if every counted visit takes one from a potential and every paying visit
adds at most the rate to it, as long as an invariant holds, the payments bound the counted
visits of a run. -/
theorem trace_potential_of_invariant {P : σ → Prop}
    (preserved : ∀ s i, P s → P (step s i).1) (potential : σ → Nat)
    (counts pays : Visit σ ι ο → Bool) (rate : Nat)
    (amortised : ∀ s i, P s → potential (step s i).1 + (counts (visit step s i)).toNat ≤
      potential s + rate * (pays (visit step s i)).toNat)
    {s : σ} (start : P s) (inputs : List ι) :
    potential (run step s inputs) + (trace step s inputs).countP counts ≤
      potential s + rate * (trace step s inputs).countP pays := by
  induction inputs generalizing s with
  | nil => simp
  | cons i rest ih =>
      have here := amortised s i start
      have later := ih (preserved s i start)
      simp only [run_cons, trace_cons, List.countP_cons, ite_eq_toNat, Nat.mul_add]
      omega

/-- The same rule where every step is amortised and the outputs say what counts. -/
theorem trace_potential (potential : σ → Nat) (counts pays : ο → Bool) (rate : Nat)
    (amortised : ∀ s i, potential (step s i).1 + (counts (step s i).2).toNat ≤
      potential s + rate * (pays (step s i).2).toNat)
    (s : σ) (inputs : List ι) :
    potential (run step s inputs) + (trace step s inputs).countP (fun v => counts v.output) ≤
      potential s + rate * (trace step s inputs).countP (fun v => pays v.output) :=
  trace_potential_of_invariant (P := fun _ => True) step (fun _ _ _ => trivial) potential
    (fun v => counts v.output) (fun v => pays v.output) rate
    (fun s i _ => amortised s i) trivial inputs

/-- A rank that falls in every visit bounds the length of a run. -/
theorem length_le_of_descent (rank : σ → Nat) {s : σ} {inputs : List ι}
    (falls : ∀ v ∈ trace step s inputs, rank v.after < rank v.before) :
    inputs.length + rank (run step s inputs) ≤ rank s := by
  induction inputs generalizing s with
  | nil => simp
  | cons i rest ih =>
      obtain ⟨here, later⟩ := List.forall_mem_cons.mp falls
      have tail := ih later
      simp only [visit] at here
      simp only [List.length_cons, run_cons]
      omega

/-! ## Grouped and skipped inputs -/

section Groups

variable {κ : Type*} {β : Type*} {step : σ → ι → σ × ο} {group : κ → List ι}
  {large : σ → κ → σ × List β}

/-- A machine that takes a group of inputs at a time reaches the same states. -/
theorem run_flatMap (same : ∀ s k, (large s k).1 = run step s (group k)) (s : σ)
    (inputs : List κ) : run step s (inputs.flatMap group) = run large s inputs := by
  induction inputs generalizing s with
  | nil => rfl
  | cons k rest ih => rw [List.flatMap_cons, run_append, ih, run_cons, same]

/-- What is observed of a run over groups is observed group by group. -/
theorem observe_flatMap {observe : List (Visit σ ι ο) → List β} (none : observe [] = [])
    (join : ∀ first second, observe (first ++ second) = observe first ++ observe second)
    (same : ∀ s k, large s k = (run step s (group k), observe (trace step s (group k))))
    (s : σ) (inputs : List κ) :
    observe (trace step s (inputs.flatMap group)) =
      (trace large s inputs).flatMap Visit.output := by
  induction inputs generalizing s with
  | nil => exact none
  | cons k rest ih =>
      rw [List.flatMap_cons, trace_append, join, ih, trace_cons, List.flatMap_cons, visit, same]

/-- Inputs that change nothing and put nothing out can be left out of a run. -/
theorem run_filter {P : σ → Prop} (preserved : ∀ s k, P s → P (large s k).1) (keep : κ → Bool)
    {inputs : List κ} (skips : ∀ k ∈ inputs, keep k = false → ∀ s, P s → large s k = (s, []))
    {s : σ} (start : P s) :
    run large s (inputs.filter keep) = run large s inputs ∧
      (trace large s (inputs.filter keep)).flatMap Visit.output =
        (trace large s inputs).flatMap Visit.output := by
  induction inputs generalizing s with
  | nil => exact ⟨rfl, rfl⟩
  | cons k rest ih =>
      have later := fun s (start : P s) =>
        ih (fun j member => skips j (List.mem_cons_of_mem k member)) start
      cases kept : keep k with
      | true =>
          obtain ⟨states, outputs⟩ := later _ (preserved s k start)
          rw [List.filter_cons_of_pos kept, run_cons, run_cons, trace_cons, trace_cons,
            List.flatMap_cons, List.flatMap_cons, states, outputs]
          exact ⟨rfl, rfl⟩
      | false =>
          have unchanged := skips k List.mem_cons_self kept s start
          obtain ⟨states, outputs⟩ := later s start
          rw [List.filter_cons_of_neg (by rw [kept]; decide), run_cons, trace_cons,
            List.flatMap_cons, visit, unchanged, List.nil_append]
          exact ⟨states, outputs⟩

end Groups

/-! ## Abstraction -/

/-- The same visit, seen through an abstraction of states, inputs and outputs. -/
def Visit.map {σ' ι' ο' : Type*} (abs : σ → σ') (encode : ι → ι') (observe : ο → ο')
    (v : Visit σ ι ο) : Visit σ' ι' ο' :=
  ⟨abs v.before, encode v.input, observe v.output, abs v.after⟩

/-- If every step commutes with the abstraction, so does every run. -/
theorem trace_abstraction {σ' ι' ο' : Type*} {step : σ → ι → σ × ο} {step' : σ' → ι' → σ' × ο'}
    {P : σ → Prop} (abs : σ → σ') (encode : ι → ι') (observe : ο → ο')
    (preserved : ∀ s i, P s → P (step s i).1)
    (commutes : ∀ s i, P s →
      step' (abs s) (encode i) = (abs (step s i).1, observe (step s i).2))
    {s : σ} (start : P s) (inputs : List ι) :
    trace step' (abs s) (inputs.map encode) =
        (trace step s inputs).map (Visit.map abs encode observe) ∧
      run step' (abs s) (inputs.map encode) = abs (run step s inputs) := by
  induction inputs generalizing s with
  | nil => exact ⟨rfl, rfl⟩
  | cons i rest ih =>
      obtain ⟨traces, runs⟩ := ih (preserved s i start)
      have here := commutes s i start
      constructor
      · simp only [List.map_cons, trace_cons, visit, here, traces]
        rfl
      · simp only [List.map_cons, run_cons, here, runs]

/-- If related states answer every input alike and stay related, whole runs answer alike. -/
theorem trace_bisimulation {σ' : Type*} {step : σ → ι → σ × ο} {step' : σ' → ι → σ' × ο}
    {R : σ → σ' → Prop}
    (alike : ∀ a b i, R a b → (step a i).2 = (step' b i).2 ∧ R (step a i).1 (step' b i).1)
    {a : σ} {b : σ'} (start : R a b) (inputs : List ι) :
    (trace step a inputs).map Visit.output = (trace step' b inputs).map Visit.output ∧
      R (run step a inputs) (run step' b inputs) := by
  induction inputs generalizing a b with
  | nil => exact ⟨rfl, start⟩
  | cons i rest ih =>
      obtain ⟨here, next⟩ := alike a b i start
      obtain ⟨outputs, final⟩ := ih next
      refine ⟨?_, final⟩
      simp only [trace_cons, List.map_cons, visit, here, outputs]

end Foundation
