import Mathlib.Algebra.Ring.Nat
import Mathlib.Data.List.Induction
import Mathlib.Tactic.Common

/-!
# Byte buffers and big-endian words

`overwrite` is a copy into a fixed buffer: the bytes before the offset and after the
copied block keep their old values. Reading back a prefix that the copy covers gives
the copied bytes, whatever the buffer held before. `getD` with a zero default reads a
byte of a list; the callers check lengths before they read.

Words are split and joined most significant byte first.
-/

namespace Foundation

/-- Copy `src` over `buf`, starting at index `offset`. -/
def overwrite {α : Type*} (buf : List α) (offset : Nat) (src : List α) : List α :=
  buf.take offset ++ src ++ buf.drop (offset + src.length)

section Overwrite

variable {α : Type*}

/-- A copy that fits leaves the size of the buffer as it was. -/
theorem length_overwrite {buf src : List α} {offset : Nat}
    (fits : offset + src.length ≤ buf.length) :
    (overwrite buf offset src).length = buf.length := by
  simp only [overwrite, List.length_append, List.length_take, List.length_drop]
  omega

/-- The prefix up to the end of the copied block is the old prefix and the block. -/
theorem take_overwrite {buf src : List α} {offset : Nat} (inside : offset ≤ buf.length) :
    (overwrite buf offset src).take (offset + src.length) = buf.take offset ++ src := by
  have length : (buf.take offset ++ src).length = offset + src.length := by
    rw [List.length_append, List.length_take, Nat.min_eq_left inside]
  rw [overwrite, List.take_append_of_le_length (Nat.le_of_eq length.symm)]
  exact List.take_of_length_le (Nat.le_of_eq length)

/-- A copy to the front of a buffer is read back exactly. -/
@[simp] theorem take_overwrite_zero (buf src : List α) :
    (overwrite buf 0 src).take src.length = src := by
  have copied : (overwrite buf 0 src).take (0 + src.length) = buf.take 0 ++ src :=
    take_overwrite (Nat.zero_le buf.length)
  simpa using copied

/-- A copy within a capacity leaves what is past the capacity as it was. -/
theorem drop_overwrite {buf src : List α} {offset cap : Nat}
    (inside : offset + src.length ≤ cap) : (overwrite buf offset src).drop cap = buf.drop cap := by
  have front : (buf.take offset ++ src).length = min offset buf.length + src.length := by
    rw [List.length_append, List.length_take]
  rw [overwrite, List.drop_append, List.drop_eq_nil_of_le (by omega), List.nil_append, front,
    List.drop_drop]
  by_cases short : buf.length ≤ offset
  -- a copy past the end of a short buffer: nothing is left on either side
  · rw [List.drop_eq_nil_of_le (by omega), List.drop_eq_nil_of_le (by omega)]
  · congr 1
    omega

end Overwrite

/-- The byte at index `i`, zero past the end. -/
def byteAt (bytes : List UInt8) (i : Nat) : UInt8 := bytes.getD i 0

@[simp] theorem byteAt_cons_zero (b : UInt8) (rest : List UInt8) :
    byteAt (b :: rest) 0 = b := rfl

@[simp] theorem byteAt_cons_succ (b : UInt8) (rest : List UInt8) (i : Nat) :
    byteAt (b :: rest) (i + 1) = byteAt rest i := rfl

/-- A list that is long enough is its first bytes, one by one, and the rest. -/
theorem eq_bytes_append_drop {bytes : List UInt8} {n : Nat} (long : n ≤ bytes.length) :
    bytes = (List.range n).map (byteAt bytes) ++ bytes.drop n := by
  have front : bytes.take n = (List.range n).map (byteAt bytes) := by
    apply List.ext_getElem
    · simp [long]
    · intro i inTake _
      have inBytes : i < bytes.length := by simp at inTake; omega
      simp [byteAt, List.getElem?_eq_getElem inBytes]
  rw [← front, List.take_append_drop]

/-- A list of known length is its bytes, one by one. -/
theorem eq_bytes {bytes : List UInt8} {n : Nat} (len : bytes.length = n) :
    bytes = (List.range n).map (byteAt bytes) := by
  have whole := eq_bytes_append_drop (Nat.le_of_eq len.symm)
  rwa [List.drop_eq_nil_of_le (Nat.le_of_eq len), List.append_nil] at whole

/-- Join two bytes, the first one most significant. -/
def join16 (hi lo : UInt8) : UInt16 := (hi.toUInt16 <<< 8) ||| lo.toUInt16

theorem toNat_join16 (hi lo : UInt8) : (join16 hi lo).toNat = hi.toNat * 256 + lo.toNat := by
  have hiBound := hi.toNat_lt
  have loBound := lo.toNat_lt
  have shifted : hi.toNat <<< 8 ||| lo.toNat = hi.toNat <<< 8 + lo.toNat :=
    (Nat.shiftLeft_add_eq_or_of_lt loBound hi.toNat).symm
  have inRange : hi.toNat <<< 8 < 65536 := by rw [Nat.shiftLeft_eq]; omega
  simp only [join16, UInt16.toNat_or, UInt16.toNat_shiftLeft, UInt8.toNat_toUInt16]
  change (hi.toNat <<< 8) % 65536 ||| lo.toNat = _
  rw [Nat.mod_eq_of_lt inRange, shifted, Nat.shiftLeft_eq]

/-- The high byte of a joined pair is its first byte. -/
theorem join16_high (hi lo : UInt8) : (join16 hi lo >>> 8).toUInt8 = hi := by
  have hiBound := hi.toNat_lt
  have loBound := lo.toNat_lt
  apply UInt8.toNat_inj.mp
  simp only [UInt16.toNat_toUInt8, UInt16.toNat_shiftRight, toNat_join16]
  change ((hi.toNat * 256 + lo.toNat) >>> 8) % 256 = hi.toNat
  rw [Nat.shiftRight_eq_div_pow]
  omega

/-- The low byte of a joined pair is its second byte. -/
theorem join16_low (hi lo : UInt8) : (join16 hi lo &&& 0xFF).toUInt8 = lo := by
  have loBound := lo.toNat_lt
  apply UInt8.toNat_inj.mp
  simp only [UInt16.toNat_toUInt8, UInt16.toNat_and, toNat_join16]
  change ((hi.toNat * 256 + lo.toNat) &&& (2 ^ 8 - 1)) % 256 = lo.toNat
  rw [Nat.and_two_pow_sub_one_eq_mod]
  omega

/-- Joining determines both bytes. -/
theorem join16_inj {hi lo hi' lo' : UInt8} (same : join16 hi lo = join16 hi' lo') :
    hi = hi' ∧ lo = lo' := by
  constructor
  · rw [← join16_high hi lo, same, join16_high]
  · rw [← join16_low hi lo, same, join16_low]

/-- Join four bytes, the first one most significant. -/
def join32 (b₀ b₁ b₂ b₃ : UInt8) : UInt32 :=
  (b₀.toUInt32 <<< 24) ||| (b₁.toUInt32 <<< 16) ||| (b₂.toUInt32 <<< 8) ||| b₃.toUInt32

/-- Split a word into four bytes, the most significant one first. -/
def split32 (v : UInt32) : List UInt8 :=
  [(v >>> 24).toUInt8, (v >>> 16).toUInt8, (v >>> 8).toUInt8, v.toUInt8]

@[simp] theorem length_split32 (v : UInt32) : (split32 v).length = 4 := rfl

theorem toNat_join32 (b₀ b₁ b₂ b₃ : UInt8) :
    (join32 b₀ b₁ b₂ b₃).toNat =
      b₀.toNat * 2 ^ 24 + b₁.toNat * 2 ^ 16 + b₂.toNat * 2 ^ 8 + b₃.toNat := by
  have h₀ := b₀.toNat_lt
  have h₁ := b₁.toNat_lt
  have h₂ := b₂.toNat_lt
  have h₃ := b₃.toNat_lt
  have low : b₂.toNat <<< 8 ||| b₃.toNat = b₂.toNat <<< 8 + b₃.toNat :=
    (Nat.shiftLeft_add_eq_or_of_lt h₃ b₂.toNat).symm
  have middle : b₁.toNat <<< 16 ||| (b₂.toNat <<< 8 + b₃.toNat) =
      b₁.toNat <<< 16 + (b₂.toNat <<< 8 + b₃.toNat) := by
    refine (Nat.shiftLeft_add_eq_or_of_lt ?_ b₁.toNat).symm
    rw [Nat.shiftLeft_eq]
    omega
  have high : b₀.toNat <<< 24 ||| (b₁.toNat <<< 16 + (b₂.toNat <<< 8 + b₃.toNat)) =
      b₀.toNat <<< 24 + (b₁.toNat <<< 16 + (b₂.toNat <<< 8 + b₃.toNat)) := by
    refine (Nat.shiftLeft_add_eq_or_of_lt ?_ b₀.toNat).symm
    rw [Nat.shiftLeft_eq, Nat.shiftLeft_eq]
    omega
  have r₀ : b₀.toNat <<< 24 < 2 ^ 32 := by rw [Nat.shiftLeft_eq]; omega
  have r₁ : b₁.toNat <<< 16 < 2 ^ 32 := by rw [Nat.shiftLeft_eq]; omega
  have r₂ : b₂.toNat <<< 8 < 2 ^ 32 := by rw [Nat.shiftLeft_eq]; omega
  simp only [join32, UInt32.toNat_or, UInt32.toNat_shiftLeft, UInt8.toNat_toUInt32]
  change (b₀.toNat <<< 24) % 2 ^ 32 ||| (b₁.toNat <<< 16) % 2 ^ 32 |||
    (b₂.toNat <<< 8) % 2 ^ 32 ||| b₃.toNat = _
  rw [Nat.mod_eq_of_lt r₀, Nat.mod_eq_of_lt r₁, Nat.mod_eq_of_lt r₂, Nat.or_assoc, Nat.or_assoc,
    low, middle, high, Nat.shiftLeft_eq, Nat.shiftLeft_eq, Nat.shiftLeft_eq]
  omega

/-- The byte of a word that a right shift by `n` bits brings to the bottom. -/
private theorem toNat_shiftRight_toUInt8 (v : UInt32) {k : UInt32} {n : Nat}
    (amount : k.toNat % 32 = n) : (v >>> k).toUInt8.toNat = v.toNat / 2 ^ n % 2 ^ 8 := by
  rw [UInt32.toNat_toUInt8, UInt32.toNat_shiftRight, Nat.shiftRight_eq_div_pow, amount]

/-- Splitting a joined word gives back its four bytes. -/
theorem split32_join32 (b₀ b₁ b₂ b₃ : UInt8) :
    split32 (join32 b₀ b₁ b₂ b₃) = [b₀, b₁, b₂, b₃] := by
  have h₀ := b₀.toNat_lt
  have h₁ := b₁.toNat_lt
  have h₂ := b₂.toNat_lt
  have h₃ := b₃.toNat_lt
  have word := toNat_join32 b₀ b₁ b₂ b₃
  have p₀ : (join32 b₀ b₁ b₂ b₃ >>> 24).toUInt8 = b₀ := by
    apply UInt8.toNat_inj.mp
    have amount : (24 : UInt32).toNat % 32 = 24 := rfl
    rw [toNat_shiftRight_toUInt8 _ amount, word]
    omega
  have p₁ : (join32 b₀ b₁ b₂ b₃ >>> 16).toUInt8 = b₁ := by
    apply UInt8.toNat_inj.mp
    have amount : (16 : UInt32).toNat % 32 = 16 := rfl
    rw [toNat_shiftRight_toUInt8 _ amount, word]
    omega
  have p₂ : (join32 b₀ b₁ b₂ b₃ >>> 8).toUInt8 = b₂ := by
    apply UInt8.toNat_inj.mp
    have amount : (8 : UInt32).toNat % 32 = 8 := rfl
    rw [toNat_shiftRight_toUInt8 _ amount, word]
    omega
  have p₃ : (join32 b₀ b₁ b₂ b₃).toUInt8 = b₃ := by
    apply UInt8.toNat_inj.mp
    rw [UInt32.toNat_toUInt8, word]
    omega
  rw [split32, p₀, p₁, p₂, p₃]

/-- The four bytes determine the word. -/
theorem split32_inj {v w : UInt32} (same : split32 v = split32 w) : v = w := by
  have vBound := v.toNat_lt
  have wBound := w.toNat_lt
  obtain ⟨e₀, e₁, e₂, e₃⟩ : (v >>> 24).toUInt8 = (w >>> 24).toUInt8 ∧
      (v >>> 16).toUInt8 = (w >>> 16).toUInt8 ∧ (v >>> 8).toUInt8 = (w >>> 8).toUInt8 ∧
      v.toUInt8 = w.toUInt8 := by
    simpa only [split32, List.cons.injEq, and_true] using same
  have n₀ : v.toNat / 2 ^ 24 % 2 ^ 8 = w.toNat / 2 ^ 24 % 2 ^ 8 := by
    have amount : (24 : UInt32).toNat % 32 = 24 := rfl
    rw [← toNat_shiftRight_toUInt8 v amount, ← toNat_shiftRight_toUInt8 w amount, e₀]
  have n₁ : v.toNat / 2 ^ 16 % 2 ^ 8 = w.toNat / 2 ^ 16 % 2 ^ 8 := by
    have amount : (16 : UInt32).toNat % 32 = 16 := rfl
    rw [← toNat_shiftRight_toUInt8 v amount, ← toNat_shiftRight_toUInt8 w amount, e₁]
  have n₂ : v.toNat / 2 ^ 8 % 2 ^ 8 = w.toNat / 2 ^ 8 % 2 ^ 8 := by
    have amount : (8 : UInt32).toNat % 32 = 8 := rfl
    rw [← toNat_shiftRight_toUInt8 v amount, ← toNat_shiftRight_toUInt8 w amount, e₂]
  have n₃ : v.toNat % 2 ^ 8 = w.toNat % 2 ^ 8 := by
    simpa only [UInt32.toNat_toUInt8] using congrArg UInt8.toNat e₃
  apply UInt32.toNat_inj.mp
  omega

/-! ## Numbers of any size -/

/-- The number that the bytes spell, the first one most significant. -/
def fromBytesBig (bytes : List UInt8) : Nat := bytes.foldl (fun n b => n * 256 + b.toNat) 0

/-- The last `n` base-256 digits of a number, the most significant one first. -/
def digitsBig : Nat → Nat → List UInt8
  | 0, _ => []
  | n + 1, value => digitsBig n (value / 256) ++ [UInt8.ofNat value]

/-- A number as `n` bytes, the most significant one first; `none` if it does not fit. -/
def toBytesBig (n value : Nat) : Option (List UInt8) :=
  if value < 256 ^ n then some (digitsBig n value) else none

theorem fromBytesBig_concat (bytes : List UInt8) (b : UInt8) :
    fromBytesBig (bytes ++ [b]) = fromBytesBig bytes * 256 + b.toNat := by
  rw [fromBytesBig, List.foldl_append, List.foldl_cons, List.foldl_nil, fromBytesBig]

theorem fromBytesBig_lt (bytes : List UInt8) : fromBytesBig bytes < 256 ^ bytes.length := by
  induction bytes using List.reverseRecOn with
  | nil => exact Nat.one_pos
  | append_singleton front b ih =>
      have last := b.toNat_lt
      rw [fromBytesBig_concat, List.length_append, List.length_singleton, Nat.pow_succ]
      omega

theorem length_digitsBig (n value : Nat) : (digitsBig n value).length = n := by
  induction n generalizing value with
  | zero => rfl
  | succ n ih => rw [digitsBig, List.length_append, ih, List.length_singleton]

/-- The digits of a number spell it, up to what does not fit. -/
theorem fromBytesBig_digitsBig (n value : Nat) :
    fromBytesBig (digitsBig n value) = value % 256 ^ n := by
  induction n generalizing value with
  | zero => rw [Nat.pow_zero, Nat.mod_one]; rfl
  | succ n ih =>
      have digit : (UInt8.ofNat value).toNat = value % 256 := UInt8.toNat_ofNat'
      rw [digitsBig, fromBytesBig_concat, ih, digit, Nat.pow_succ', Nat.mod_mul, Nat.mul_comm,
        Nat.add_comm]

theorem fromBytesBig_split32 (v : UInt32) : fromBytesBig (split32 v) = v.toNat := by
  have bound := v.toNat_lt
  have p₀ : (v >>> 24).toUInt8.toNat = v.toNat / 2 ^ 24 % 2 ^ 8 := toNat_shiftRight_toUInt8 v rfl
  have p₁ : (v >>> 16).toUInt8.toNat = v.toNat / 2 ^ 16 % 2 ^ 8 := toNat_shiftRight_toUInt8 v rfl
  have p₂ : (v >>> 8).toUInt8.toNat = v.toNat / 2 ^ 8 % 2 ^ 8 := toNat_shiftRight_toUInt8 v rfl
  have p₃ : v.toUInt8.toNat = v.toNat % 2 ^ 8 := UInt32.toNat_toUInt8 v
  simp only [fromBytesBig, split32, List.foldl_cons, List.foldl_nil, p₀, p₁, p₂, p₃]
  omega

theorem toBytesBig_toNat (v : UInt32) : toBytesBig 4 v.toNat = some (split32 v) := by
  have bound : v.toNat < 256 ^ 4 := v.toNat_lt
  have digit : ∀ {k : UInt32} {n m : Nat}, k.toNat % 32 = n → v.toNat / m = v.toNat / 2 ^ n →
      UInt8.ofNat (v.toNat / m) = (v >>> k).toUInt8 := by
    intro k n m amount same
    apply UInt8.toNat_inj.mp
    rw [toNat_shiftRight_toUInt8 v amount, same, UInt8.toNat_ofNat']
  have d₃ : UInt8.ofNat v.toNat = v.toUInt8 := rfl
  have d₂ : UInt8.ofNat (v.toNat / 256) = (v >>> 8).toUInt8 := digit (n := 8) rfl rfl
  have d₁ : UInt8.ofNat (v.toNat / 256 / 256) = (v >>> 16).toUInt8 := by
    rw [Nat.div_div_eq_div_mul]
    exact digit (n := 16) rfl rfl
  have d₀ : UInt8.ofNat (v.toNat / 256 / 256 / 256) = (v >>> 24).toUInt8 := by
    rw [Nat.div_div_eq_div_mul, Nat.div_div_eq_div_mul]
    exact digit (n := 24) rfl rfl
  rw [toBytesBig, if_pos bound]
  simp only [digitsBig, d₀, d₁, d₂, d₃]
  rfl

end Foundation
