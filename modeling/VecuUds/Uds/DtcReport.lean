import Mathlib.Data.List.DropRight
import VecuUds.Foundation.Records
import VecuUds.Foundation.Trace
import VecuUds.Uds.Effect

/-!
# What ReadDTC reports

The trouble code memory over its whole history, and the one request that reads it. The memory
is filled by `dtc_mem_add` and emptied by `dtc_mem_clear_all`, which the application calls and
which a tester reaches through ClearDiagnosticInformation. A tester that reads it back decodes
the first codes that were stored since the last of these, each one whole and in order, or is
told that the response would be too long.
-/

namespace VecuUds

open Foundation

/-! ## Trouble codes -/

/-- A trouble code as a tester knows it: 24 bits and a status. -/
structure TroubleCode where
  code : Nat
  status : UInt8
  range : code < 2 ^ 24
  deriving DecidableEq, Repr

/-- The low 24 bits of a word. -/
def TroubleCode.cut (dtc : UInt32) (status : UInt8) : TroubleCode :=
  ⟨dtc.toNat % 2 ^ 24, status, Nat.mod_lt _ (by decide)⟩

theorem fromBytesBig_three (high middle low : UInt8) :
    fromBytesBig [high, middle, low] < 2 ^ 24 := by
  have size : (256 : Nat) ^ 3 = 2 ^ 24 := by decide
  have bound : fromBytesBig [high, middle, low] < 256 ^ 3 := fromBytesBig_lt _
  rwa [size] at bound

/-- Three bytes of code, the most significant one first, and the status. -/
def dtcFormat : RecordFormat TroubleCode where
  size := 4
  encode c := digitsBig 3 c.code ++ [c.status]
  decode
    | [high, middle, low, status] =>
        some ⟨fromBytesBig [high, middle, low], status, fromBytesBig_three high middle low⟩
    | _ => none
  length_encode c := by rw [List.length_append, length_digitsBig, List.length_singleton]
  decode_encode c := by
    obtain ⟨code, status, range⟩ := c
    have spelled : fromBytesBig (digitsBig 3 code) = code := by
      rw [fromBytesBig_digitsBig]
      exact Nat.mod_eq_of_lt range
    have same : (⟨fromBytesBig (digitsBig 3 code), status, fromBytesBig_three _ _ _⟩ :
        TroubleCode) = ⟨code, status, range⟩ := by
      simp only [spelled]
    exact congrArg some same

/-- An entry of the memory, as a tester knows it. -/
def DtcEntry.troubleCode (e : DtcEntry) : TroubleCode := .cut e.dtc e.status

section Format

theorem toUInt8_low (w : UInt32) : (w &&& 0xFF).toUInt8 = UInt8.ofNat w.toNat := by
  apply UInt8.toNat_inj.mp
  have masked : (w &&& 0xFF).toNat = w.toNat % 2 ^ 8 := Nat.and_two_pow_sub_one_eq_mod _ 8
  rw [UInt32.toNat_toUInt8, masked, UInt8.toNat_ofNat', Nat.mod_mod]

/-- `h_read_dtc` writes the four bytes of the format. -/
theorem DtcEntry.encode_eq (e : DtcEntry) : e.encode = dtcFormat.encode e.troubleCode := by
  have digit : ∀ {k : UInt32} {n m : Nat}, k.toNat % 32 = n →
      e.dtc.toNat / 2 ^ n % 256 = m % 256 →
      ((e.dtc >>> k) &&& 0xFF).toUInt8 = UInt8.ofNat m := by
    intro k n m amount same
    apply UInt8.toNat_inj.mp
    rw [toUInt8_low, UInt8.toNat_ofNat', UInt8.toNat_ofNat', UInt32.toNat_shiftRight, amount,
      Nat.shiftRight_eq_div_pow]
    exact same
  have bytes : dtcFormat.encode e.troubleCode =
      [UInt8.ofNat (e.dtc.toNat % 2 ^ 24 / 256 / 256), UInt8.ofNat (e.dtc.toNat % 2 ^ 24 / 256),
        UInt8.ofNat (e.dtc.toNat % 2 ^ 24), e.status] := rfl
  have high := digit (k := 16) (n := 16) (m := e.dtc.toNat % 2 ^ 24 / 256 / 256) rfl (by omega)
  have middle := digit (k := 8) (n := 8) (m := e.dtc.toNat % 2 ^ 24 / 256) rfl (by omega)
  have low : (e.dtc &&& 0xFF).toUInt8 = UInt8.ofNat (e.dtc.toNat % 2 ^ 24) := by
    apply UInt8.toNat_inj.mp
    rw [toUInt8_low, UInt8.toNat_ofNat', UInt8.toNat_ofNat']
    omega
  rw [DtcEntry.encode, high, middle, low, bytes]

theorem flatMap_encode (snap : List DtcEntry) :
    snap.flatMap DtcEntry.encode = dtcFormat.encodeAll (snap.map DtcEntry.troubleCode) := by
  rw [RecordFormat.encodeAll, List.flatMap_map]
  exact List.flatMap_congr fun e _ => e.encode_eq

end Format

/-! ## The history of the memory -/

/-- What happens to the memory: a code is stored, or the memory is cleared, by the application
or by a request with SID `14`. -/
inductive DtcOp where
  | add (dtc : UInt32) (status : UInt8)
  | clearAll
  | clearRequest (amb : Ambient) (args : List UInt8) (cap : Nat)

/-- One of these calls, with the value it returns. -/
def dtcStep {ρ ω : Type} [DidCallbacks ρ ω] (s : VecuState ρ ω) : DtcOp → VecuState ρ ω × Int
  | .add dtc status => ({ s with dtcs := dtcMemAdd s.dtcs dtc status }, dtcMemAddRc s.dtcs)
  | .clearAll => ({ s with dtcs := dtcMemClearAll s.dtcs }, s.dtcs.entries.length)
  | .clearRequest amb args cap =>
      let r := udsProcessRequest amb s (0x14 :: args) cap
      (r.1, r.2.rc)

/-- The ECU after a history that begins with `dtc_mem_init`. -/
def dtcRun {ρ ω : Type} [DidCallbacks ρ ω] (start : VecuState ρ ω) (ops : List DtcOp) :
    VecuState ρ ω :=
  run dtcStep { start with dtcs := dtcMemInit } ops

/-- The call empties the memory. A request does if it names the group of all codes and is not
dropped. -/
def DtcOp.clears : DtcOp → Bool
  | .add _ _ => false
  | .clearAll => true
  | .clearRequest _ args cap => args = [0xFF, 0xFF, 0xFF] ∧ 3 ≤ cap

/-- The code that the call offers to the memory. -/
def DtcOp.offered : DtcOp → Option TroubleCode
  | .add dtc status => some (.cut dtc status)
  | _ => none

/-- The calls since the last one that emptied the memory. -/
def sinceClear (ops : List DtcOp) : List DtcOp := ops.rtakeWhile fun op => !op.clears

/-- The codes that were accepted since the memory was last empty: the first sixteen. -/
def accepted (ops : List DtcOp) : List TroubleCode :=
  ((sinceClear ops).filterMap DtcOp.offered).take dtcMax

section History

variable {ops : List DtcOp} {op : DtcOp}

theorem accepted_clears (clears : op.clears = true) : accepted (ops ++ [op]) = [] := by
  rw [accepted, sinceClear, List.rtakeWhile_concat_neg _ _ _ (by simp [clears])]
  rfl

theorem sinceClear_keeps (keeps : op.clears = false) :
    sinceClear (ops ++ [op]) = sinceClear ops ++ [op] :=
  List.rtakeWhile_concat_pos _ _ _ (by simp [keeps])

theorem accepted_offered (keeps : op.clears = false) {c : TroubleCode}
    (offered : op.offered = some c) :
    accepted (ops ++ [op]) = offer dtcMax (accepted ops) c := by
  rw [accepted, sinceClear_keeps keeps, List.filterMap_append, accepted, offer_take]
  simp only [List.filterMap_cons, offered, List.filterMap_nil]

theorem accepted_other (keeps : op.clears = false) (other : op.offered = none) :
    accepted (ops ++ [op]) = accepted ops := by
  rw [accepted, sinceClear_keeps keeps, List.filterMap_append, accepted]
  simp only [List.filterMap_cons, other, List.filterMap_nil, List.append_nil]

/-- The memory holds these codes, and its mask is the one of `dtc_mem_init`. -/
structure DtcMem.Holds (m : DtcMem) (codes : List TroubleCode) : Prop where
  entries : m.entries.map DtcEntry.troubleCode = codes
  mask : m.availabilityMask = dtcMemInit.availabilityMask

variable {m : DtcMem} {codes : List TroubleCode}

/-- A code that is stored is cut to 24 bits, and a tester who cuts it sees no difference. -/
theorem troubleCode_stored (dtc : UInt32) (status : UInt8) :
    (⟨dtc &&& 0x00FFFFFF, status⟩ : DtcEntry).troubleCode = .cut dtc status := by
  have masked : (dtc &&& 0x00FFFFFF).toNat = dtc.toNat % 2 ^ 24 :=
    Nat.and_two_pow_sub_one_eq_mod _ 24
  have same : (dtc &&& 0x00FFFFFF).toNat % 2 ^ 24 = dtc.toNat % 2 ^ 24 := by
    rw [masked, Nat.mod_mod]
  simp only [DtcEntry.troubleCode, TroubleCode.cut, same]

theorem DtcMem.Holds.add (holds : m.Holds codes) (dtc : UInt32) (status : UInt8) :
    (dtcMemAdd m dtc status).Holds (offer dtcMax codes (.cut dtc status)) := by
  refine ⟨?_, ?_⟩
  · rw [entries_dtcMemAdd, map_offer, holds.entries, troubleCode_stored]
  · rw [← holds.mask]
    unfold dtcMemAdd
    split_ifs <;> rfl

theorem DtcMem.Holds.clearAll (holds : m.Holds codes) : (dtcMemClearAll m).Holds [] :=
  ⟨rfl, holds.mask⟩

theorem DtcMem.Holds.length (holds : m.Holds codes) : m.entries.length = codes.length := by
  rw [← holds.entries, List.length_map]

variable {ρ ω : Type} [DidCallbacks ρ ω] {s : VecuState ρ ω}

/-- What ClearDiagnosticInformation does to the memory, whatever follows the SID. -/
theorem clearRequest_dtcs (amb : Ambient) (s : VecuState ρ ω) (args : List UInt8) (cap : Nat) :
    (udsProcessRequest amb s (0x14 :: args) cap).1.dtcs =
      if args = [0xFF, 0xFF, 0xFF] ∧ 3 ≤ cap then dtcMemClearAll s.dtcs else s.dtcs := by
  by_cases room : 3 ≤ cap
  swap
  · have dropped : (0x14 :: args).length = 0 ∨ cap < 3 := .inr (Nat.lt_of_not_le room)
    rw [udsProcessRequest, if_pos dropped, if_neg fun both => room both.2]
  have row : udsProcessRequest amb s (0x14 :: args) cap = hClearDtc amb s (0x14 :: args) cap :=
    udsProcessRequest_row (u := .clearDtc) amb s room rfl rfl
  rw [row, hClearDtc]
  by_cases length : args.length = 3
  · obtain ⟨a, b, c, rfl⟩ := List.length_eq_three.mp length
    by_cases all : a = 0xFF ∧ b = 0xFF ∧ c = 0xFF
    · obtain ⟨rfl, rfl, rfl⟩ := all
      simp [room, byteAt]
    · have other : ¬ ([a, b, c] = [0xFF, 0xFF, 0xFF] ∧ 3 ≤ cap) := by
        rintro ⟨same, -⟩
        simp only [List.cons.injEq, and_true] at same
        exact all same
      rw [if_neg other]
      simp [byteAt, all]
  · have other : ¬ (args = [0xFF, 0xFF, 0xFF] ∧ 3 ≤ cap) := by
      rintro ⟨rfl, -⟩
      exact length rfl
    rw [if_neg other]
    simp [length]

/-- One call, and what the memory holds after it. -/
theorem DtcMem.Holds.step (holds : s.dtcs.Holds (accepted ops)) (op : DtcOp) :
    (dtcStep s op).1.dtcs.Holds (accepted (ops ++ [op])) := by
  cases op with
  | add dtc status =>
      rw [accepted_offered rfl rfl]
      exact holds.add dtc status
  | clearAll =>
      rw [accepted_clears rfl]
      exact holds.clearAll
  | clearRequest amb args cap =>
      simp only [dtcStep, clearRequest_dtcs]
      split_ifs with clears
      · have empties : (DtcOp.clearRequest amb args cap).clears = true := decide_eq_true clears
        rw [accepted_clears empties]
        exact holds.clearAll
      · have keeps : (DtcOp.clearRequest amb args cap).clears = false := decide_eq_false clears
        rw [accepted_other keeps rfl]
        exact holds

theorem dtcRun_holds (start : VecuState ρ ω) (ops : List DtcOp) :
    (dtcRun start ops).dtcs.Holds (accepted ops) := by
  induction ops using List.reverseRecOn with
  | nil => exact ⟨rfl, rfl⟩
  | append_singleton past op ih =>
      rw [dtcRun, run_snoc]
      exact ih.step op

end History

/-! ## Reading it back -/

section Report

variable {ρ ω : Type} [DidCallbacks ρ ω] {s : VecuState ρ ω} {codes : List TroubleCode}

/-- The codes that a status mask selects. -/
def reported (mask : UInt8) (codes : List TroubleCode) : List TroubleCode :=
  codes.filter fun c => c.status &&& mask ≠ 0

/-- The snapshot has room for the whole memory. -/
theorem DtcMem.Holds.snapshot {m : DtcMem} (holds : m.Holds codes) (mask : UInt8) :
    (dtcMemSnapshotByMask m mask dtcMax).map DtcEntry.troubleCode = reported mask codes := by
  rw [dtcMemSnapshotByMask, dtcMemSnapshotLoop_of_room mask m.bound, reported, ← holds.entries,
    List.filter_map]
  rfl

/-- The answer to `19 02`, for a memory that holds these codes. -/
theorem udsProcessRequest_readDtc (holds : s.dtcs.Holds codes) (amb : Ambient) (mask : UInt8)
    {cap : Nat} (room : 3 ≤ cap) :
    udsProcessRequest amb s [0x19, 0x02, mask] cap =
      (s, if cap < 3 + 4 * (reported mask codes).length then ⟨0, [0x7F, 0x19, 0x14], some 3⟩
        else
          ⟨0, [0x59, 0x02, dtcMemInit.availabilityMask] ++
              dtcFormat.encodeAll (reported mask codes),
            some (3 + 4 * (reported mask codes).length)⟩) := by
  have row : udsProcessRequest amb s [0x19, 0x02, mask] cap =
      hReadDtc amb s [0x19, 0x02, mask] cap :=
    udsProcessRequest_row (u := .readDtc) amb s room rfl rfl
  have handled : hReadDtc amb s [0x19, 0x02, mask] cap =
      (if cap < 3 + (dtcMemSnapshotByMask s.dtcs mask dtcMax).length * 4 then
        (s, ⟨0, [0x7F, 0x19, 0x14], some 3⟩)
      else
        (s, ⟨0, [0x59, 0x02, s.dtcs.availabilityMask] ++
              (dtcMemSnapshotByMask s.dtcs mask dtcMax).flatMap DtcEntry.encode,
            some (3 + (dtcMemSnapshotByMask s.dtcs mask dtcMax).length * 4)⟩)) := by
    have short : ¬ [0x19, 0x02, mask].length < 2 := by simp
    have second : byteAt [0x19, 0x02, mask] 1 = 0x02 := rfl
    have known : ¬ subFunction 0x02 ≠ 0x02 := by decide
    have whole : ¬ [0x19, 0x02, mask].length ≠ 3 := not_not.mpr rfl
    simp only [hReadDtc, second, if_neg short, if_neg known, if_neg whole]
    rfl
  have snapshot := holds.snapshot mask
  have length := congrArg List.length snapshot
  rw [List.length_map] at length
  rw [row, handled, flatMap_encode, snapshot, length, holds.mask, Nat.mul_comm]
  exact (apply_ite (Prod.mk s) _ _ _).symm

end Report

/-- **ReadDTC reports the memory exactly.** Whatever was stored and cleared before: the answer
to `19 02` decodes to the accepted codes that match the mask, in the order in which they were
stored, or says that it would be too long and lists none. A code is refused, without effect,
exactly when sixteen are held. -/
theorem read_dtc_exact {ρ ω : Type} [DidCallbacks ρ ω] (start : VecuState ρ ω)
    (ops : List DtcOp) (amb : Ambient) (mask : UInt8) {cap : Nat} (room : 3 ≤ cap) :
    let s := dtcRun start ops
    let reply := (udsProcessRequest amb s [0x19, 0x02, mask] cap).2
    let n := (reported mask (accepted ops)).length
    (3 + 4 * n ≤ cap → ∃ table,
        reply = ⟨0, [0x59, 0x02, dtcMemInit.availabilityMask] ++ table, some (3 + 4 * n)⟩ ∧
          table.length = 4 * n ∧
          dtcFormat.decodeAll n table = some (reported mask (accepted ops))) ∧
      (cap < 3 + 4 * n → reply = ⟨0, [0x7F, 0x19, 0x14], some 3⟩) ∧
      ∀ dtc status,
        ((dtcStep s (.add dtc status)).2 = -1 ↔ (accepted ops).length = dtcMax) ∧
          ((accepted ops).length = dtcMax → (dtcStep s (.add dtc status)).1 = s) := by
  intro s reply n
  have holds : s.dtcs.Holds (accepted ops) := dtcRun_holds start ops
  have answer : reply = _ := congrArg Prod.snd (udsProcessRequest_readDtc holds amb mask room)
  refine ⟨?_, ?_, ?_⟩
  · intro fits
    rw [answer, if_neg (Nat.not_lt.mpr fits)]
    exact ⟨_, rfl, dtcFormat.length_encodeAll _, dtcFormat.decodeAll_encodeAll _⟩
  · intro long
    rw [answer, if_pos long]
  · intro dtc status
    have length := holds.length
    have bound := s.dtcs.bound
    constructor
    · have code : (dtcStep s (.add dtc status)).2 = dtcMemAddRc s.dtcs := rfl
      rw [code, dtcMemAddRc]
      split_ifs with less
      · exact iff_of_false (by decide) (by omega)
      · exact iff_of_true rfl (by omega)
    · intro full
      have refused : dtcMemAdd s.dtcs dtc status = s.dtcs := dif_neg (by omega)
      simp only [dtcStep, refused]

/-- Two codes of which the mask selects one, after a history with a clear in it. -/
def storedCodes : List DtcOp :=
  [.add 0x111111 0x01, .clearAll, .add 0xFF030100 0x09, .add 0x042000 0x08]

theorem read_dtc_exact_stored_codes : ∃ table,
    (udsProcessRequest ⟨0, 0, none, fun _ => (0, 0)⟩ (dtcRun (vecuInit 0) storedCodes)
        [0x19, 0x02, 0x01] 7).2 = ⟨0, [0x59, 0x02, 0x29] ++ table, some 7⟩ ∧
      table.length = 4 ∧ dtcFormat.decodeAll 1 table = some [⟨0x030100, 0x09, by decide⟩] :=
  (read_dtc_exact (vecuInit 0) storedCodes ⟨0, 0, none, fun _ => (0, 0)⟩ 0x01
    (by decide : 3 ≤ 7)).1 (by decide)

end VecuUds
