import Mathlib.Data.List.Basic
import Mathlib.Tactic.Common

/-!
# Circular buffers

A circular buffer keeps its elements in consecutive slots, modulo the capacity, from
the head on. The indices of the structure stay in range by construction; that the tail
and the counter agree with them is the invariant `Ring.Valid`, which pushing into a
buffer with room and popping from a nonempty one preserve.

A push changes the slot at the tail through a function of its old value, so that a
partial copy into a reused slot is a push like any other.
-/

namespace Foundation

universe u

/-- The slots of a circular buffer with its two indices and its counter. -/
structure Ring (α : Type u) (cap : Nat) where
  slots : Vector α cap
  head : Nat
  tail : Nat
  count : Nat
  head_lt : head < cap
  tail_lt : tail < cap

namespace Ring

variable {α : Type u} {cap : Nat} (q : Ring α cap)

theorem cap_pos (q : Ring α cap) : 0 < cap := Nat.zero_lt_of_lt q.head_lt

/-- The slot `k` places after the head. -/
def slotAt (k : Nat) : α := q.slots.get ⟨(q.head + k) % cap, Nat.mod_lt _ q.cap_pos⟩

/-- The list a buffer stands for, oldest element first. -/
def contents : List α := (List.range q.count).map q.slotAt

/-- Write the tail slot and advance the tail. -/
def push (write : α → α) : Ring α cap :=
  { q with
    slots := q.slots.set q.tail (write (q.slots.get ⟨q.tail, q.tail_lt⟩)) q.tail_lt
    tail := (q.tail + 1) % cap
    count := q.count + 1
    tail_lt := Nat.mod_lt _ q.cap_pos }

/-- Read the head slot and advance the head. -/
def pop : α × Ring α cap :=
  (q.slots.get ⟨q.head, q.head_lt⟩,
    { q with
      head := (q.head + 1) % cap
      count := q.count - 1
      head_lt := Nat.mod_lt _ q.cap_pos })

/-- The tail stands `count` places after the head, and no slot is counted twice. -/
structure Valid : Prop where
  bounded : q.count ≤ cap
  tail : q.tail = (q.head + q.count) % cap

variable {q}

@[simp] theorem length_contents : q.contents.length = q.count := by
  simp [contents]

theorem Valid.push (valid : q.Valid) (room : q.count < cap) (write : α → α) :
    (q.push write).Valid where
  bounded := room
  tail := by
    change (q.tail + 1) % cap = (q.head + (q.count + 1)) % cap
    rw [valid.tail, Nat.mod_add_mod, Nat.add_assoc]

theorem Valid.pop (valid : q.Valid) (nonempty : 0 < q.count) : q.pop.2.Valid where
  bounded := Nat.le_trans (Nat.sub_le _ _) valid.bounded
  tail := by
    change q.tail = ((q.head + 1) % cap + (q.count - 1)) % cap
    rw [valid.tail, Nat.mod_add_mod]
    congr 1
    omega

/-- Two places less than a full turn apart are different slots. -/
theorem slot_ne {head i j : Nat} (below : i < j) (turn : j < i + cap) :
    (head + i) % cap ≠ (head + j) % cap := by
  intro same
  have whole : (head + j - (head + i)) % cap = 0 := Nat.sub_mod_eq_zero_of_mod_eq same.symm
  rw [Nat.mod_eq_of_lt (by omega)] at whole
  omega

/-- A push does not disturb the elements already there. -/
theorem slotAt_push (valid : q.Valid) (room : q.count < cap) (write : α → α) {k : Nat}
    (old : k < q.count) : (q.push write).slotAt k = q.slotAt k := by
  have other : q.tail ≠ (q.head + k) % cap := by
    rw [valid.tail]
    exact (slot_ne old (by omega)).symm
  exact Vector.getElem_set_ne q.tail_lt _ other

theorem contents_push (valid : q.Valid) (room : q.count < cap) (write : α → α) :
    (q.push write).contents = q.contents ++ [write (q.slots.get ⟨q.tail, q.tail_lt⟩)] := by
  have last : (q.push write).slotAt q.count = write (q.slots.get ⟨q.tail, q.tail_lt⟩) := by
    have place : (q.head + q.count) % cap = q.tail := valid.tail.symm
    simp only [slotAt, push, place]
    exact Vector.getElem_set_self q.tail_lt
  have front : (List.range q.count).map (q.push write).slotAt = q.contents :=
    List.map_congr_left fun k member => slotAt_push valid room write (List.mem_range.mp member)
  change (List.range (q.count + 1)).map (q.push write).slotAt = _
  rw [List.range_succ, List.map_append, front, List.map_singleton, last]

theorem slotAt_pop (k : Nat) : q.pop.2.slotAt k = q.slotAt (k + 1) := by
  have place : ((q.head + 1) % cap + k) % cap = (q.head + (k + 1)) % cap := by
    rw [Nat.mod_add_mod]
    congr 1
    omega
  simp only [slotAt, pop, place]

theorem contents_pop (nonempty : 0 < q.count) : q.contents = q.pop.1 :: q.pop.2.contents := by
  have first : q.slotAt 0 = q.pop.1 := by
    have place : (q.head + 0) % cap = q.head := Nat.mod_eq_of_lt q.head_lt
    simp only [slotAt, pop, place]
  have rest : q.pop.2.contents = (List.range (q.count - 1)).map fun k => q.slotAt (k + 1) :=
    List.map_congr_left fun k _ => slotAt_pop k
  obtain ⟨n, count⟩ := Nat.exists_eq_succ_of_ne_zero (Nat.ne_of_gt nonempty)
  rw [rest, contents, count, List.range_succ_eq_map, List.map_cons, first, List.map_map]
  rfl

end Ring

end Foundation
