import VecuUds.Foundation.Trace

/-!
# Scheduled machines

The inputs of a machine may be the moves of several agents, put in order by a scheduler.
A run of a large machine then contains a run of each part: `project` collects the inputs
that reach the part.

Progress is counted in rounds. A round is a list of inputs in which every agent moves at
least once, in any order and any number of times. A rank certificate names, for every
state with work left, one agent whose next move lowers the rank; no other move may raise
the rank, or change which agent that is without lowering it. The rank of a state then
bounds the rounds until nothing is left to do.
-/

namespace Foundation

universe u v w x

variable {σ : Type u} {ι : Type v} {ο : Type w} {τ : Type x} {step : σ → ι → σ × ο}

/-! ## Parts of a machine -/

section Projection

variable {σ' : Type*} {κ : Type*} {ο' : Type*}

/-- The inputs of a part, in a run of the whole. -/
def project (step : σ → ι → σ × ο) (act : σ → ι → Option κ) : σ → List ι → List κ
  | _, [] => []
  | s, i :: rest => (act s i).toList ++ project step act (step s i).1 rest

theorem project_append (act : σ → ι → Option κ) (s : σ) (first second : List ι) :
    project step act s (first ++ second) =
      project step act s first ++ project step act (run step s first) second := by
  induction first generalizing s with
  | nil => rfl
  | cons i rest ih =>
      simp only [List.cons_append, project, run_cons, ih, List.append_assoc]

/-- A part that moves as its own machine does runs as its own machine does. -/
theorem run_project {part : σ' → κ → σ' × ο'} {act : σ → ι → Option κ} (abs : σ → σ')
    (commutes : ∀ s i, abs (step s i).1 = run part (abs s) (act s i).toList) (s : σ)
    (inputs : List ι) : abs (run step s inputs) = run part (abs s) (project step act s inputs) := by
  induction inputs generalizing s with
  | nil => rfl
  | cons i rest ih => rw [run_cons, ih, commutes, project, run_append]

end Projection

/-! ## Rounds -/

/-- A list of inputs in which every agent moves. -/
def Round (who : ι → Option τ) (inputs : List ι) : Prop := ∀ agent, ∃ i ∈ inputs, who i = some agent

/-- A rank that an agent named by the state lowers, under a condition on the inputs and an
invariant of the states. -/
structure RankCertificate (step : σ → ι → σ × ο) (who : ι → Option τ) (allowed : ι → Prop)
    (P : σ → Prop) (rank : σ → Nat) (helper : σ → τ) : Prop where
  preserved : ∀ s i, P s → allowed i → P (step s i).1
  settles : ∀ s i, P s → allowed i → rank (step s i).1 < rank s ∨
    rank (step s i).1 = rank s ∧ (rank s ≠ 0 → helper (step s i).1 = helper s)
  helps : ∀ s i, P s → allowed i → rank s ≠ 0 → who i = some (helper s) →
    rank (step s i).1 < rank s

namespace RankCertificate

variable {who : ι → Option τ} {allowed : ι → Prop} {P : σ → Prop} {rank : σ → Nat}
variable {helper : σ → τ} {s : σ}

theorem run_preserved (certificate : RankCertificate step who allowed P rank helper)
    (start : P s) {inputs : List ι} (all : ∀ i ∈ inputs, allowed i) : P (run step s inputs) := by
  induction inputs generalizing s with
  | nil => exact start
  | cons i rest ih =>
      obtain ⟨here, later⟩ := List.forall_mem_cons.mp all
      exact ih (certificate.preserved s i start here) later

theorem rank_run_le (certificate : RankCertificate step who allowed P rank helper)
    (start : P s) {inputs : List ι} (all : ∀ i ∈ inputs, allowed i) :
    rank (run step s inputs) ≤ rank s := by
  induction inputs generalizing s with
  | nil => exact Nat.le_refl _
  | cons i rest ih =>
      obtain ⟨here, later⟩ := List.forall_mem_cons.mp all
      have down : rank (step s i).1 ≤ rank s := by
        rcases certificate.settles s i start here with lower | ⟨same, -⟩
        · exact Nat.le_of_lt lower
        · exact Nat.le_of_eq same
      exact Nat.le_trans (ih (certificate.preserved s i start here) later) down

/-- The helping agent's move lowers the rank, wherever it stands among the others. -/
theorem rank_run_lt (certificate : RankCertificate step who allowed P rank helper)
    (start : P s) {inputs : List ι} (all : ∀ i ∈ inputs, allowed i)
    (moves : ∃ i ∈ inputs, who i = some (helper s)) (work : rank s ≠ 0) :
    rank (run step s inputs) < rank s := by
  induction inputs generalizing s with
  | nil =>
      obtain ⟨i, member, -⟩ := moves
      exact absurd member List.not_mem_nil
  | cons i rest ih =>
      obtain ⟨here, later⟩ := List.forall_mem_cons.mp all
      have next := certificate.preserved s i start here
      have after := certificate.rank_run_le next later
      rw [run_cons]
      rcases certificate.settles s i start here with lower | ⟨same, still⟩
      · exact Nat.lt_of_le_of_lt after lower
      · obtain ⟨j, member, helping⟩ := moves
        rcases List.mem_cons.mp member with rfl | member
        · exact Nat.lt_of_le_of_lt after (certificate.helps s j start here work helping)
        · rw [← same]
          exact ih next later ⟨j, member, by rw [still work]; exact helping⟩
            (by rw [same]; exact work)

/-- Every round takes one from the rank. -/
theorem rank_rounds_le (certificate : RankCertificate step who allowed P rank helper)
    (start : P s) {rounds : List (List ι)} (fair : ∀ inputs ∈ rounds, Round who inputs)
    (all : ∀ inputs ∈ rounds, ∀ i ∈ inputs, allowed i) :
    rank (run step s rounds.flatten) ≤ rank s - rounds.length := by
  induction rounds generalizing s with
  | nil => exact Nat.le_refl _
  | cons inputs rest ih =>
      obtain ⟨round, fair⟩ := List.forall_mem_cons.mp fair
      obtain ⟨here, later⟩ := List.forall_mem_cons.mp all
      have rested := ih (certificate.run_preserved start here) fair later
      rw [List.flatten_cons, run_append, List.length_cons]
      by_cases work : rank s = 0
      · have idle := certificate.rank_run_le start here
        omega
      · have lower := certificate.rank_run_lt start here (round (helper s)) work
        omega

/-- As many rounds as the rank says leave nothing to do. -/
theorem rank_rounds_eq_zero (certificate : RankCertificate step who allowed P rank helper)
    (start : P s) {rounds : List (List ι)} (fair : ∀ inputs ∈ rounds, Round who inputs)
    (all : ∀ inputs ∈ rounds, ∀ i ∈ inputs, allowed i) (enough : rank s ≤ rounds.length) :
    rank (run step s rounds.flatten) = 0 := by
  have bound := certificate.rank_rounds_le start fair all
  omega

end RankCertificate

end Foundation
