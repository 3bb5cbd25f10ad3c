import VecuUds.Isotp.Basic

/-!
# Frames of a message

The consecutive frames of a message from an offset on, as the loop of `send_multiframe`
sends them, and what the receiver reads out of every kind of frame. Sender and receiver
compute offsets, chunks and sequence numbers separately; the lemmas of this module are
where the two arithmetics meet.
-/

namespace VecuUds

open Foundation

/-! ## Reading a built frame -/

section Padded

variable (id : UInt32) (b c : UInt8) (rest : List UInt8)

theorem CanFrame.maskedId_padded : (CanFrame.padded id rest).maskedId = id &&& canSffMask := by
  simp only [CanFrame.maskedId, CanFrame.padded, UInt32.and_assoc, UInt32.and_self]

theorem CanFrame.byte_one_padded : (CanFrame.padded id (b :: c :: rest)).byte 1 = c := rfl

/-- The bytes after the first one, as far as they carry payload. -/
theorem CanFrame.body_padded {n : Nat} (inside : n ≤ 7) (long : n ≤ rest.length) :
    ((CanFrame.padded id (b :: rest)).data.drop 1).take n = rest.take n := by
  have tail : (CanFrame.padded id (b :: rest)).data.drop 1 =
      (rest ++ List.replicate 8 isotpPadding).take 7 := rfl
  rw [tail, List.take_take, Nat.min_eq_left inside, List.take_append_of_le_length long]

/-- The bytes after the first two. -/
theorem CanFrame.body_padded_two {n : Nat} (inside : n ≤ 6) (long : n ≤ rest.length) :
    ((CanFrame.padded id (b :: c :: rest)).data.drop 2).take n = rest.take n := by
  have tail : (CanFrame.padded id (b :: c :: rest)).data.drop 2 =
      (rest ++ List.replicate 8 isotpPadding).take 6 := rfl
  rw [tail, List.take_take, Nat.min_eq_left inside, List.take_append_of_le_length long]

end Padded

/-- A nibble below the type of a first or consecutive frame reads back as itself. -/
private theorem nibble_under (x : UInt8) :
    (((0x10 : UInt8) ||| (x &&& 0x0F)) >>> 4 = 0x1 ∧
        ((0x10 : UInt8) ||| (x &&& 0x0F)) &&& 0x0F = x &&& 0x0F) ∧
      ((0x20 : UInt8) ||| (x &&& 0x0F)) >>> 4 = 0x2 ∧
        ((0x20 : UInt8) ||| (x &&& 0x0F)) &&& 0x0F = x &&& 0x0F := by
  have all : ∀ n < 256,
      (((0x10 : UInt8) ||| (UInt8.ofNat n &&& 0x0F)) >>> 4 = 0x1 ∧
          ((0x10 : UInt8) ||| (UInt8.ofNat n &&& 0x0F)) &&& 0x0F = UInt8.ofNat n &&& 0x0F) ∧
        ((0x20 : UInt8) ||| (UInt8.ofNat n &&& 0x0F)) >>> 4 = 0x2 ∧
          ((0x20 : UInt8) ||| (UInt8.ofNat n &&& 0x0F)) &&& 0x0F = UInt8.ofNat n &&& 0x0F := by
    decide +kernel
  have here := all x.toNat x.toNat_lt
  rwa [UInt8.ofNat_toNat] at here

section Kinds

variable (id : UInt32) {data : List UInt8}

theorem sfFrame_pci (short : data.length ≤ 7) :
    (sfFrame id data).pci = pciSf ∧ (sfFrame id data).nibble.toNat = data.length := by
  have all : ∀ n < 8, ((n.toUInt8 &&& 0x0F : UInt8) >>> 4 = pciSf) ∧
      ((n.toUInt8 &&& 0x0F : UInt8) &&& 0x0F).toNat = n := by decide
  exact all data.length (by omega)

theorem sfFrame_body (short : data.length ≤ 7) :
    ((sfFrame id data).data.drop 1).take data.length = data := by
  rw [sfFrame, CanFrame.body_padded _ _ _ short (Nat.le_refl _), List.take_length]

theorem ffFrame_pci : (ffFrame id data).pci = pciFf := (nibble_under _).1.1

/-- The twelve-bit length field holds every admissible length. -/
theorem ffFrame_ffLength (fits : data.length ≤ isotpMaxPayload) :
    (ffFrame id data).ffLength = data.length := by
  have high : (ffFrame id data).nibble = (data.length >>> 8).toUInt8 &&& 0x0F :=
    (nibble_under _).1.2
  have below : data.length / 256 < 16 := by
    simp only [isotpMaxPayload] at fits
    omega
  have small : ∀ n < 16, (n.toUInt8 &&& 0x0F).toNat = n := by decide
  have low : ((ffFrame id data).byte 1).toNat = data.length % 256 := by
    rw [ffFrame, CanFrame.byte_one_padded]
    exact UInt8.toNat_ofNat'
  rw [CanFrame.ffLength, high, low, Nat.shiftRight_eq_div_pow, small _ below,
    ← Nat.shiftLeft_add_eq_or_of_lt (Nat.mod_lt _ (by decide)), Nat.shiftLeft_eq]
  omega

theorem ffFrame_body (long : 6 ≤ data.length) :
    ((ffFrame id data).data.drop 2).take 6 = data.take 6 := by
  rw [ffFrame, CanFrame.body_padded_two _ _ _ _ (by decide) (by simp; omega), List.take_take]
  rfl

theorem cfFrame_pci (sn : UInt8) (chunk : List UInt8) :
    (cfFrame id sn chunk).pci = pciCf ∧ (cfFrame id sn chunk).nibble = sn &&& 0x0F :=
  (nibble_under sn).2

theorem cfFrame_body (sn : UInt8) {chunk : List UInt8} (short : chunk.length ≤ 7) :
    ((cfFrame id sn chunk).data.drop 1).take chunk.length = chunk := by
  rw [cfFrame, CanFrame.body_padded _ _ _ short (Nat.le_refl _), List.take_length]

theorem fcFrame_pci : (fcFrame id).pci = pciFc ∧ (fcFrame id).nibble = fcFsCts := by
  exact ⟨(by decide : ((0x30 : UInt8) ||| fcFsCts) >>> 4 = pciFc),
    (by decide : ((0x30 : UInt8) ||| fcFsCts) &&& 0x0F = fcFsCts)⟩

end Kinds

/-! ## Consecutive frames -/

/-- How both sides cut the rest of a message: a whole frame, or all there is. -/
theorem chunk_eq_min (rest : Nat) : (if rest > 7 then 7 else rest) = min 7 rest := by
  split_ifs <;> omega

theorem sendChunk_eq (data : List UInt8) (offset : Nat) :
    sendChunk data offset = min 7 (data.length - offset) :=
  chunk_eq_min _

theorem sendChunk_pos {data : List UInt8} {offset : Nat} (inside : offset < data.length) :
    0 < sendChunk data offset := by
  rw [sendChunk_eq]
  omega

/-- The frames that the loop of `send_multiframe` still has to send. -/
def cfFrames (txId : UInt32) (data : List UInt8) (offset : Nat) (sn : UInt8) : List CanFrame :=
  if offset < data.length then
    cfFrame txId sn ((data.drop offset).take (sendChunk data offset)) ::
      cfFrames txId data (offset + sendChunk data offset) ((sn + 1) &&& 0x0F)
  else []
termination_by data.length - offset
decreasing_by
  have := sendChunk_pos ‹offset < data.length›
  omega

theorem cfFrames_of_lt {txId : UInt32} {data : List UInt8} {offset : Nat} {sn : UInt8}
    (inside : offset < data.length) :
    cfFrames txId data offset sn =
      cfFrame txId sn ((data.drop offset).take (sendChunk data offset)) ::
        cfFrames txId data (offset + sendChunk data offset) ((sn + 1) &&& 0x0F) := by
  rw [cfFrames, if_pos inside]

theorem cfFrames_of_ge {txId : UInt32} {data : List UInt8} {offset : Nat} {sn : UInt8}
    (past : data.length ≤ offset) : cfFrames txId data offset sn = [] := by
  rw [cfFrames, if_neg (Nat.not_lt.mpr past)]

/-! ## The receiver's side -/

/-- The receiver passes this frame over while no reassembly is open: it is neither a
well-formed single frame nor a well-formed first frame. -/
def Stray (outCap : Nat) (f : CanFrame) : Prop :=
  (f.pci = pciSf → f.nibble.toNat = 0 ∨ f.nibble.toNat > 7 ∨ f.nibble.toNat > outCap) ∧
    (f.pci = pciFf → f.ffLength < 8 ∨ f.ffLength > isotpMaxPayload ∨ f.ffLength > outCap)

/-- A stray frame changes at most the unused length variable. -/
theorem recvIdle_stray {outCap : Nat} {f : CanFrame} (stray : Stray outCap f) (v : RecvVars) :
    ∃ total, recvIdle outCap v f = .loop { v with totalLen := total } := by
  by_cases single : f.pci = pciSf
  · refine ⟨v.totalLen, ?_⟩
    simp only [recvIdle, if_pos single, if_pos (stray.1 single)]
  · by_cases first : f.pci = pciFf
    · refine ⟨f.ffLength, ?_⟩
      simp only [recvIdle, if_neg single, if_pos first, if_pos (stray.2 first)]
    · refine ⟨v.totalLen, ?_⟩
      simp only [recvIdle, if_neg single, if_neg first]

theorem recvIdle_sfFrame {outCap : Nat} {id : UInt32} {data : List UInt8} (v : RecvVars)
    (nonempty : 1 ≤ data.length) (short : data.length ≤ 7) (fits : data.length ≤ outCap) :
    recvIdle outCap v (sfFrame id data) =
      .done { v with out := overwrite v.out 0 data, outLen := data.length } 0 := by
  obtain ⟨pci, nibble⟩ := sfFrame_pci id short
  have good : ¬ (data.length = 0 ∨ data.length > 7 ∨ data.length > outCap) := by omega
  simp only [recvIdle, pci, if_true, nibble, if_neg good, sfFrame_body id short]

theorem recvIdle_ffFrame {outCap : Nat} {id : UInt32} {data : List UInt8} (v : RecvVars)
    (long : 7 < data.length) (bounded : data.length ≤ isotpMaxPayload)
    (fits : data.length ≤ outCap) :
    recvIdle outCap v (ffFrame id data) =
      .sendFc { v with
        out := overwrite v.out 0 (data.take 6), totalLen := data.length, got := 6, nextSn := 1,
        receiving := true } := by
  have other : ¬ pciFf = pciSf := by decide
  have good : ¬ (data.length < 8 ∨ data.length > isotpMaxPayload ∨ data.length > outCap) := by
    omega
  simp only [recvIdle, ffFrame_pci, other, if_false, if_true, ffFrame_ffLength id bounded,
    if_neg good, ffFrame_body id (by omega : 6 ≤ data.length)]

/-- The next consecutive frame is copied behind what was already received. -/
theorem recvReceiving_cfFrame {id : UInt32} {data : List UInt8} {v : RecvVars}
    (total : v.totalLen = data.length) (sn : v.nextSn &&& 0x0F = v.nextSn) :
    recvReceiving v
        (cfFrame id v.nextSn ((data.drop v.got).take (sendChunk data v.got))) =
      .armCf { v with
        out := overwrite v.out v.got ((data.drop v.got).take (sendChunk data v.got))
        got := v.got + sendChunk data v.got
        nextSn := (v.nextSn + 1) &&& 0x0F } := by
  obtain ⟨pci, nibble⟩ := cfFrame_pci id v.nextSn ((data.drop v.got).take (sendChunk data v.got))
  have chunk : (if data.length - v.got > 7 then 7 else data.length - v.got) =
      sendChunk data v.got := rfl
  have length : ((data.drop v.got).take (sendChunk data v.got)).length = sendChunk data v.got := by
    rw [sendChunk_eq, List.length_take, List.length_drop]
    omega
  have body := cfFrame_body id v.nextSn (by rw [length, sendChunk_eq]; omega :
    ((data.drop v.got).take (sendChunk data v.got)).length ≤ 7)
  rw [length] at body
  simp only [recvReceiving, pci, nibble, sn, total, ne_eq, not_true_eq_false, if_false, chunk, body]

end VecuUds
