import Mathlib.Data.Finset.Basic

/-!
# Custody of resources

Owners take resources from a pool and give them back. A resource that is live is accounted for
if it was live from the start, is held by an owner, or was lost: its owner let go of it without
giving it back. A ledger lists the lost ones, and each operation enters what it does. In a
ledger that balances no resource has two owners, and what an owner holds is live.
-/

namespace Foundation

universe u v

/-- The live resources and what each owner holds. -/
structure Custody (κ : Type u) (ρ : Type v) where
  live : Finset ρ
  held : κ → Option ρ

namespace Custody

variable {κ : Type u} {ρ : Type v}

/-- Nobody holds anything. -/
def start (base : Finset ρ) : Custody κ ρ := ⟨base, fun _ => none⟩

/-- The owner lets go of what it holds, which stays live. -/
def forget [DecidableEq κ] (c : Custody κ ρ) (k : κ) : Custody κ ρ :=
  { c with held := Function.update c.held k none }

/-- The owner takes a resource. -/
def take [DecidableEq κ] [DecidableEq ρ] (c : Custody κ ρ) (k : κ) (r : ρ) : Custody κ ρ where
  live := insert r c.live
  held := Function.update c.held k (some r)

/-- The owner gives back what it holds. -/
def release [DecidableEq κ] [DecidableEq ρ] (c : Custody κ ρ) (k : κ) : Custody κ ρ where
  live := match c.held k with
    | some r => c.live.erase r
    | none => c.live
  held := Function.update c.held k none

/-- Every live resource is accounted for, once. -/
structure Balanced (base : Finset ρ) (lost : List ρ) (c : Custody κ ρ) : Prop where
  live_iff : ∀ r, r ∈ c.live ↔ r ∈ base ∨ (∃ k, c.held k = some r) ∨ r ∈ lost
  single : ∀ {k k' r}, c.held k = some r → c.held k' = some r → k = k'
  apart : ∀ {k r}, c.held k = some r → r ∉ base ∧ r ∉ lost

theorem update_none_iff [DecidableEq κ] {held : κ → Option ρ} {k k' : κ} {r : ρ} :
    Function.update held k none k' = some r ↔ k' ≠ k ∧ held k' = some r := by
  by_cases same : k' = k
  · subst same
    simp
  · simp [same]

theorem update_some_iff [DecidableEq κ] {held : κ → Option ρ} {k k' : κ} {r r' : ρ} :
    Function.update held k (some r') k' = some r ↔
      k' = k ∧ r' = r ∨ k' ≠ k ∧ held k' = some r := by
  by_cases same : k' = k
  · subst same
    simp
  · simp [same]

namespace Balanced

variable {base : Finset ρ} {lost : List ρ} {c : Custody κ ρ} {k : κ} {r : ρ}

theorem of_start (base : Finset ρ) : Balanced base [] (.start base : Custody κ ρ) where
  live_iff := by simp [Custody.start]
  single := by simp [Custody.start]
  apart := by simp [Custody.start]

/-- What an owner holds is live. -/
theorem held_live (balanced : Balanced base lost c) (held : c.held k = some r) : r ∈ c.live :=
  (balanced.live_iff r).mpr (.inr (.inl ⟨k, held⟩))

variable [DecidableEq κ]

/-- What an owner lets go of is entered as lost. -/
theorem forget (balanced : Balanced base lost c) (k : κ) :
    Balanced base (lost ++ (c.held k).toList) (c.forget k) := by
  refine ⟨?_, ?_, ?_⟩
  · intro r
    rw [List.mem_append, Option.mem_toList]
    simp only [Custody.forget, balanced.live_iff r, update_none_iff]
    constructor
    · rintro (old | ⟨k', held⟩ | gone)
      · exact .inl old
      · by_cases same : k' = k
        · exact .inr (.inr (.inr (same ▸ held)))
        · exact .inr (.inl ⟨k', same, held⟩)
      · exact .inr (.inr (.inl gone))
    · rintro (old | ⟨k', -, held⟩ | gone | held)
      · exact .inl old
      · exact .inr (.inl ⟨k', held⟩)
      · exact .inr (.inr gone)
      · exact .inr (.inl ⟨k, held⟩)
  · intro k₁ k₂ r first second
    exact balanced.single (update_none_iff.mp first).2 (update_none_iff.mp second).2
  · intro k' r held
    obtain ⟨other, held⟩ := update_none_iff.mp held
    obtain ⟨outside, found⟩ := balanced.apart held
    refine ⟨outside, ?_⟩
    rw [List.mem_append, Option.mem_toList]
    rintro (gone | forgotten)
    · exact found gone
    · exact other (balanced.single held forgotten)

variable [DecidableEq ρ]

/-- An owner without a resource takes a fresh one. -/
theorem take (balanced : Balanced base lost c) (empty : c.held k = none) (fresh : r ∉ c.live) :
    Balanced base lost (c.take k r) := by
  have unknown := fresh
  rw [balanced.live_iff r] at unknown
  obtain ⟨outside, unheld, kept⟩ : r ∉ base ∧ (¬ ∃ k, c.held k = some r) ∧ r ∉ lost := by tauto
  refine ⟨?_, ?_, ?_⟩
  · intro r'
    rw [Custody.take, Finset.mem_insert, balanced.live_iff r']
    simp only [update_some_iff]
    constructor
    · rintro (rfl | old | ⟨k', held⟩ | gone)
      · exact .inr (.inl ⟨k, .inl ⟨rfl, rfl⟩⟩)
      · exact .inl old
      · have other : k' ≠ k := by
          rintro rfl
          rw [empty] at held
          cases held
        exact .inr (.inl ⟨k', .inr ⟨other, held⟩⟩)
      · exact .inr (.inr gone)
    · rintro (old | ⟨k', ⟨-, rfl⟩ | ⟨-, held⟩⟩ | gone)
      · exact .inr (.inl old)
      · exact .inl rfl
      · exact .inr (.inr (.inl ⟨k', held⟩))
      · exact .inr (.inr (.inr gone))
  · intro k₁ k₂ r' first second
    rcases update_some_iff.mp first with ⟨rfl, rfl⟩ | ⟨-, held₁⟩
    · rcases update_some_iff.mp second with ⟨rfl, -⟩ | ⟨-, held₂⟩
      · rfl
      · exact absurd ⟨k₂, held₂⟩ unheld
    · rcases update_some_iff.mp second with ⟨rfl, rfl⟩ | ⟨-, held₂⟩
      · exact absurd ⟨k₁, held₁⟩ unheld
      · exact balanced.single held₁ held₂
  · intro k' r' held
    rcases update_some_iff.mp held with ⟨-, rfl⟩ | ⟨-, held⟩
    · exact ⟨outside, kept⟩
    · exact balanced.apart held

/-- An owner gives back what it holds. -/
theorem release (balanced : Balanced base lost c) (k : κ) :
    Balanced base lost (c.release k) := by
  refine ⟨?_, ?_, ?_⟩
  · intro r
    cases holding : c.held k with
    | none =>
        simp only [Custody.release, holding, update_none_iff, balanced.live_iff r]
        refine or_congr_right (or_congr_left (exists_congr fun k' => ?_))
        refine ⟨fun held => ⟨?_, held⟩, And.right⟩
        rintro rfl
        rw [holding] at held
        cases held
    | some mine =>
        obtain ⟨outside, kept⟩ := balanced.apart holding
        simp only [Custody.release, holding, update_none_iff, Finset.mem_erase,
          balanced.live_iff r]
        constructor
        · rintro ⟨other, old | ⟨k', held⟩ | gone⟩
          · exact .inl old
          · refine .inr (.inl ⟨k', ?_, held⟩)
            rintro rfl
            exact other (Option.some.inj (held.symm.trans holding))
          · exact .inr (.inr gone)
        · rintro (old | ⟨k', other, held⟩ | gone)
          · exact ⟨fun same => outside (same ▸ old), .inl old⟩
          · exact ⟨fun same => other (balanced.single held (same ▸ holding)),
              .inr (.inl ⟨k', held⟩)⟩
          · exact ⟨fun same => kept (same ▸ gone), .inr (.inr gone)⟩
  · intro k₁ k₂ r first second
    exact balanced.single (update_none_iff.mp first).2 (update_none_iff.mp second).2
  · intro k' r held
    exact balanced.apart (update_none_iff.mp held).2

end Balanced

end Custody

end Foundation
