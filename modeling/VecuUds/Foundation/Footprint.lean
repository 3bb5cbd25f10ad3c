import VecuUds.Foundation.Trace

/-!
# Footprints

The state of a machine is compared part by part. The footprint of an input is the parts that it
may write and the parts that decide its output and what it writes. A selection of parts is
closed if the inputs that write a selected part read selected parts only. Then the selected
parts of a run are decided by the inputs that write one of them: all other inputs can be
dropped, added or moved, and whoever reads selected parts sees no difference.
-/

namespace Foundation

universe u v w x

variable {σ : Type u} {ι : Type v} {ο : Type w} {π : Type x}

/-- What inputs write and read, as far as states with `P` go. `same p` compares one part. -/
structure Footprint (step : σ → ι → σ × ο) (P : σ → Prop) (same : π → σ → σ → Prop)
    (writes reads : ι → List π) : Prop where
  equivalence : ∀ p, Equivalence (same p)
  preserved : ∀ s i, P s → P (step s i).1
  frame : ∀ s i p, P s → p ∉ writes i → same p (step s i).1 s
  output : ∀ s t i, P s → P t → (∀ q ∈ reads i, same q s t) → (step s i).2 = (step t i).2
  carry : ∀ s t i p, P s → P t → (∀ q ∈ reads i, same q s t) → same p s t →
    same p (step s i).1 (step t i).1

/-- Two states agree on the selected parts. -/
def AgreeOn (same : π → σ → σ → Prop) (kept : π → Bool) (s t : σ) : Prop :=
  ∀ p, kept p = true → same p s t

/-- The input writes a selected part. -/
def writesKept (writes : ι → List π) (kept : π → Bool) (i : ι) : Bool := (writes i).any kept

/-- Whatever decides a selected part is selected. -/
def ClosedUnder (writes reads : ι → List π) (kept : π → Bool) : Prop :=
  ∀ i, writesKept writes kept i = true → ∀ q ∈ reads i, kept q = true

namespace Footprint

variable {step : σ → ι → σ × ο} {P : σ → Prop} {same : π → σ → σ → Prop}
  {writes reads : ι → List π} {kept : π → Bool} {s t : σ}

theorem agree_refl (fp : Footprint step P same writes reads) (kept : π → Bool) (s : σ) :
    AgreeOn same kept s s :=
  fun p _ => (fp.equivalence p).refl s

theorem agree_symm (fp : Footprint step P same writes reads) (agree : AgreeOn same kept s t) :
    AgreeOn same kept t s :=
  fun p selected => (fp.equivalence p).symm (agree p selected)

theorem agree_trans (fp : Footprint step P same writes reads) {r : σ}
    (first : AgreeOn same kept r s) (second : AgreeOn same kept s t) : AgreeOn same kept r t :=
  fun p selected => (fp.equivalence p).trans (first p selected) (second p selected)

/-- An input that writes no selected part leaves them all alone. -/
theorem agree_skip (fp : Footprint step P same writes reads) (start : P s) {i : ι}
    (skipped : writesKept writes kept i = false) : AgreeOn same kept (step s i).1 s := by
  intro p selected
  apply fp.frame s i p start
  intro written
  have some : writesKept writes kept i = true := List.any_eq_true.mpr ⟨p, written, selected⟩
  rw [skipped] at some
  exact Bool.false_ne_true some

/-- An input that reads selected parts only keeps two agreeing states in agreement. -/
theorem agree_step (fp : Footprint step P same writes reads) (left : P s) (right : P t)
    (agree : AgreeOn same kept s t) {i : ι} (reading : ∀ q ∈ reads i, kept q = true) :
    AgreeOn same kept (step s i).1 (step t i).1 := by
  intro p selected
  have read : ∀ q ∈ reads i, same q s t := fun q member => agree q (reading q member)
  exact fp.carry s t i p left right read (agree p selected)

/-- The inputs that write selected parts lead to the same selected parts as the whole run. -/
theorem agree_filter (fp : Footprint step P same writes reads)
    (closed : ClosedUnder writes reads kept) (left : P s) (right : P t)
    (agree : AgreeOn same kept s t) (inputs : List ι) :
    AgreeOn same kept (run step s inputs)
      (run step t (inputs.filter (writesKept writes kept))) := by
  induction inputs generalizing s t with
  | nil => exact agree
  | cons i rest ih =>
      have next : P (step s i).1 := fp.preserved s i left
      cases needed : writesKept writes kept i with
      | true =>
          rw [List.filter_cons_of_pos needed, run_cons, run_cons]
          exact ih next (fp.preserved t i right) (fp.agree_step left right agree (closed i needed))
      | false =>
          rw [List.filter_cons_of_neg (by rw [needed]; decide), run_cons]
          exact ih next right (fp.agree_trans (fp.agree_skip left needed) agree)

/-- Runs with the same writers of selected parts agree on these parts. -/
theorem agree_of_filter_eq (fp : Footprint step P same writes reads)
    (closed : ClosedUnder writes reads kept) (start : P s) {first second : List ι}
    (writers : first.filter (writesKept writes kept) = second.filter (writesKept writes kept)) :
    AgreeOn same kept (run step s first) (run step s second) := by
  have left := fp.agree_filter closed start start (fp.agree_refl kept s) first
  have right := fp.agree_filter closed start start (fp.agree_refl kept s) second
  rw [writers] at left
  exact fp.agree_trans left (fp.agree_symm right)

/-- A reader of selected parts gets the same output behind such runs. -/
theorem output_of_filter_eq (fp : Footprint step P same writes reads)
    (closed : ClosedUnder writes reads kept) (start : P s) {first second : List ι}
    (writers : first.filter (writesKept writes kept) = second.filter (writesKept writes kept))
    {i : ι} (reading : ∀ q ∈ reads i, kept q = true) :
    (step (run step s first) i).2 = (step (run step s second) i).2 := by
  have agree := fp.agree_of_filter_eq closed start writers
  refine fp.output _ _ i (run_invariant step fp.preserved start first)
    (run_invariant step fp.preserved start second) ?_
  intro q member
  exact agree q (reading q member)

end Footprint

end Foundation
