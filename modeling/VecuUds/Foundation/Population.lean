import Mathlib.Algebra.BigOperators.Group.Finset.Basic
import Mathlib.Algebra.Order.BigOperators.Group.Finset
import Mathlib.Data.Fintype.Basic

/-!
# Counting the members of a population

A finite population of threads, each in some state: how many of them are in a state of a
given kind. The rules say how the count moves when one member changes, and when any
number of members change sides between two kinds. A last rule is about weights in place of
kinds.
-/

namespace Foundation

variable {τ : Type*} [Fintype τ]

/-- The number of members with the property. -/
def population (p : τ → Bool) : Nat := ∑ i, (p i).toNat

theorem population_eq_zero {p : τ → Bool} : population p = 0 ↔ ∀ i, p i = false := by
  simp [population, Finset.sum_eq_zero_iff]

/-- One member changes: the count moves with it. -/
theorem population_update [DecidableEq τ] {p q : τ → Bool} (i : τ)
    (same : ∀ j, j ≠ i → q j = p j) :
    population q + (p i).toNat = population p + (q i).toNat := by
  have others :
      ∑ j ∈ Finset.univ.erase i, (q j).toNat = ∑ j ∈ Finset.univ.erase i, (p j).toNat := by
    apply Finset.sum_congr rfl
    intro j member
    rw [same j (Finset.ne_of_mem_erase member)]
  have first := Finset.add_sum_erase Finset.univ (fun j => (p j).toNat) (Finset.mem_univ i)
  have second := Finset.add_sum_erase Finset.univ (fun j => (q j).toNat) (Finset.mem_univ i)
  simp only [population]
  omega

/-- Members that move between two kinds leave the total of the two as it is. -/
theorem population_transfer {p q p' q' : τ → Bool}
    (moved : ∀ i, (p' i).toNat + (q' i).toNat = (p i).toNat + (q i).toNat) :
    population p' + population q' = population p + population q := by
  simp only [population, ← Finset.sum_add_distrib]
  exact Finset.sum_congr rfl fun i _ => moved i

/-- A kind that loses a member and gains none gets smaller. -/
theorem population_lt {p q : τ → Bool} (subset : ∀ i, q i = true → p i = true)
    {i : τ} (left : p i = true) (gone : q i = false) : population q < population p := by
  apply Finset.sum_lt_sum
  · intro j _
    cases member : q j with
    | false => exact Nat.zero_le _
    | true => rw [subset j member]
  · exact ⟨i, Finset.mem_univ i, by rw [left, gone]; decide⟩

/-- One member moves and every other one gains at most `k`: a bound on the total weight. -/
theorem total_le_of_move [DecidableEq τ] {w w' : τ → Nat} (i : τ) {k : Nat}
    (others : ∀ j, j ≠ i → w' j ≤ w j + k) :
    ∑ j, w' j + w i ≤ ∑ j, w j + w' i + Fintype.card τ * k := by
  have rest : ∑ j ∈ Finset.univ.erase i, w' j ≤ ∑ j ∈ Finset.univ.erase i, (w j + k) :=
    Finset.sum_le_sum fun j member => others j (Finset.ne_of_mem_erase member)
  have gains : ∑ _j ∈ Finset.univ.erase i, k ≤ Fintype.card τ * k := by
    rw [Finset.sum_const_nat fun _ _ => rfl]
    exact Nat.mul_le_mul_right k (Finset.card_le_univ _)
  have first := Finset.add_sum_erase Finset.univ w' (Finset.mem_univ i)
  have second := Finset.add_sum_erase Finset.univ w (Finset.mem_univ i)
  rw [Finset.sum_add_distrib] at rest
  omega

end Foundation
