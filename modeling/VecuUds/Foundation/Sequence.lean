import Mathlib.Data.List.Basic

/-!
# Sequence numbers on a channel that loses and repeats

Elements carry a number, and consecutive elements carry consecutive numbers modulo some
modulus. A channel may lose elements and may repeat an element right after itself. As long
as it never loses a whole period between two delivered elements, whatever arrives with
consecutive numbers is what was sent: a receiver that checks the numbers accepts neither
a gap nor a repetition.
-/

namespace Foundation

variable {α : Type*} {number : α → Nat} {modulus : Nat}

/-- The elements carry the numbers `n`, `n + 1`, ... reduced by the modulus. -/
inductive Numbered (number : α → Nat) (modulus : Nat) : Nat → List α → Prop where
  | nil {n : Nat} : Numbered number modulus n []
  | cons {n : Nat} {x : α} {xs : List α} (here : number x = n % modulus)
      (rest : Numbered number modulus (n + 1) xs) : Numbered number modulus n (x :: xs)

theorem Numbered.snoc {n : Nat} {x : α} {xs : List α} (numbered : Numbered number modulus n xs)
    (last : number x = (n + xs.length) % modulus) : Numbered number modulus n (xs ++ [x]) := by
  induction numbered with
  | nil => exact .cons last .nil
  | @cons n y ys here _ ih =>
      refine .cons here (ih ?_)
      rw [last, List.length_cons]
      congr 1
      omega

theorem Numbered.at {n : Nat} {x : α} {before after : List α}
    (numbered : Numbered number modulus n (before ++ x :: after)) :
    number x = (n + before.length) % modulus := by
  induction before generalizing n with
  | nil =>
      cases numbered with
      | cons here _ => exact here
  | cons y before ih =>
      cases numbered with
      | cons _ rest =>
          rw [ih rest, List.length_cons]
          congr 1
          omega

/-- What a channel makes of the elements it has still to carry, when it has lost `gap`
elements since the last one it delivered. It may lose any number of elements in the end,
but at most `bound` in a row before a delivered one. -/
inductive Lossy (bound : Nat) : Nat → List α → List α → Prop where
  | nil {gap : Nat} : Lossy bound gap [] []
  | lose {gap : Nat} {x : α} {sent delivered : List α}
      (rest : Lossy bound (gap + 1) sent delivered) : Lossy bound gap (x :: sent) delivered
  | deliver {gap : Nat} {x : α} {sent delivered : List α} (repeats : Nat) (short : gap ≤ bound)
      (rest : Lossy bound 0 sent delivered) :
      Lossy bound gap (x :: sent) (x :: (List.replicate repeats x ++ delivered))

theorem Lossy.mem {bound gap : Nat} {x : α} {sent delivered : List α}
    (lossy : Lossy bound gap sent delivered) (member : x ∈ delivered) : x ∈ sent := by
  induction lossy with
  | nil => exact member
  | lose _ ih => exact List.mem_cons_of_mem _ (ih member)
  | deliver repeats _ _ ih =>
      rw [List.mem_cons, List.mem_append, List.mem_replicate] at member
      rcases member with rfl | ⟨-, rfl⟩ | later
      · exact List.mem_cons_self
      · exact List.mem_cons_self
      · exact List.mem_cons_of_mem _ (ih later)

/-- A gap below the modulus shows in the next number. -/
private theorem gap_eq_zero {n gap : Nat} (short : gap < modulus)
    (same : (n + gap) % modulus = n % modulus) : gap = 0 := by
  have divides : modulus ∣ n + gap - n :=
    Nat.dvd_of_mod_eq_zero (Nat.sub_mod_eq_zero_of_mod_eq same)
  rw [Nat.add_sub_cancel_left] at divides
  exact Nat.eq_zero_of_dvd_of_lt divides short

/-- A front of the delivered elements with consecutive numbers, from the number that is
due on, is empty unless nothing was lost, and then it is a front of the sent ones. -/
theorem Lossy.prefix_of_numbered {bound gap n : Nat} {sent delivered : List α}
    (lossy : Lossy bound gap sent delivered) (more : 1 < modulus) (small : bound < modulus)
    (numbered : Numbered number modulus (n + gap) sent) {front : List α}
    (arrived : front <+: delivered) (accepted : Numbered number modulus n front) :
    front = [] ∨ gap = 0 ∧ front <+: sent := by
  induction lossy generalizing n front with
  | nil => exact .inl (List.prefix_nil.mp arrived)
  | lose _ ih =>
      cases numbered with
      | cons _ later =>
          obtain empty | ⟨positive, -⟩ := ih later arrived accepted
          · exact .inl empty
          · cases positive
  | @deliver gap x sent delivered repeats short _ ih =>
      cases accepted with
      | nil => exact .inl rfl
      | @cons _ y front here next =>
          obtain ⟨rfl, arrived⟩ := List.cons_prefix_cons.mp arrived
          cases numbered with
          | cons due later =>
              have none : gap = 0 := gap_eq_zero (by omega) (due.symm.trans here)
              subst none
              refine .inr ⟨rfl, List.cons_prefix_cons.mpr ⟨rfl, ?_⟩⟩
              cases repeats with
              | zero =>
                  obtain rfl | ⟨-, fits⟩ := ih later arrived next
                  · exact List.nil_prefix
                  · exact fits
              | succ repeats =>
                  -- the copy arrives with the number of the original
                  cases next with
                  | nil => exact List.nil_prefix
                  | cons again _ =>
                      obtain ⟨rfl, -⟩ := List.cons_prefix_cons.mp arrived
                      cases gap_eq_zero more (again.symm.trans here)

end Foundation
