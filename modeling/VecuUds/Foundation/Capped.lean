import Mathlib.Data.List.Induction

/-!
# Lists with a capacity

A store with room for so many elements takes what it is offered until it is full and refuses
the rest. So it holds the first elements that it was offered, and its content is a prefix of
the whole history however long that grows.
-/

namespace Foundation

variable {α : Type*} {cap : Nat}

/-- Append an element to a list that has room for it. -/
def offer (cap : Nat) (xs : List α) (x : α) : List α :=
  if xs.length < cap then xs ++ [x] else xs

/-- The first elements of a history, and the next element of it. -/
theorem offer_take (history : List α) (x : α) :
    offer cap (history.take cap) x = (history ++ [x]).take cap := by
  unfold offer
  split_ifs with room
  · have short : history.length < cap := by
      rw [List.length_take] at room
      omega
    rw [List.take_of_length_le (Nat.le_of_lt short), List.take_of_length_le]
    rw [List.length_append]
    exact short
  · have full : cap ≤ history.length := by
      rw [List.length_take] at room
      omega
    exact (List.take_append_of_le_length full).symm

/-- A store that starts empty holds the first elements that it is offered. -/
theorem foldl_offer (history : List α) : history.foldl (offer cap) [] = history.take cap := by
  induction history using List.reverseRecOn with
  | nil => exact List.take_nil.symm
  | append_singleton past x ih =>
      rw [List.foldl_append, ih, List.foldl_cons, List.foldl_nil, offer_take]

/-- An abstraction of the elements commutes with the store. -/
theorem map_offer {β : Type*} (f : α → β) (xs : List α) (x : α) :
    (offer cap xs x).map f = offer cap (xs.map f) (f x) := by
  unfold offer
  rw [List.length_map, apply_ite (List.map f), List.map_append, List.map_singleton]

end Foundation
