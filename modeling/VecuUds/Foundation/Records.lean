import VecuUds.Foundation.Bytes

/-!
# Tables of records on the wire

A record format stores a value in a fixed number of bytes. A table is its records one behind
the other, without separators or a count, so a reader has to know how many there are, and it
accepts the table only if nothing is left behind the last one.
-/

namespace Foundation

universe u

/-- A format that stores every value in `size` bytes and reads it back. -/
structure RecordFormat (α : Type u) where
  size : Nat
  encode : α → List UInt8
  decode : List UInt8 → Option α
  length_encode : ∀ x, (encode x).length = size
  decode_encode : ∀ x, decode (encode x) = some x

namespace RecordFormat

variable {α : Type u} (format : RecordFormat α)

/-- The records of a table, in order. -/
def encodeAll (xs : List α) : List UInt8 := xs.flatMap format.encode

/-- Read a table of so many records. -/
def decodeAll : Nat → List UInt8 → Option (List α)
  | 0, bytes => if bytes = [] then some [] else none
  | n + 1, bytes =>
      match format.decode (bytes.take format.size), decodeAll n (bytes.drop format.size) with
      | some x, some xs => some (x :: xs)
      | _, _ => none

theorem length_encodeAll (xs : List α) :
    (format.encodeAll xs).length = format.size * xs.length := by
  induction xs with
  | nil => rfl
  | cons x rest ih =>
      rw [encodeAll, List.flatMap_cons, List.length_append, format.length_encode,
        ← encodeAll, ih, List.length_cons, Nat.mul_succ, Nat.add_comm]

/-- No record of a table is lost, cut or moved. -/
theorem decodeAll_encodeAll (xs : List α) :
    format.decodeAll xs.length (format.encodeAll xs) = some xs := by
  induction xs with
  | nil => rfl
  | cons x rest ih =>
      have length := format.length_encode x
      rw [encodeAll, List.flatMap_cons, ← encodeAll, List.length_cons, decodeAll,
        List.take_left' length, List.drop_left' length, format.decode_encode, ih]

end RecordFormat

end Foundation
